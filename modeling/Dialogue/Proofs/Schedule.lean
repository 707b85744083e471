import Mathlib.Data.List.Nodup
import Dialogue.Proofs.Isolation

/-! Who has a pass in a frame. Each lane that is there when a frame begins has one pass, in the order of the numbers, the
    main lane last; each lane that is added has one when it is added, without any time. So no lane carries out more than
    one action (`update_visits`). -/

namespace Dialogue
namespace Session
variable {c : Conversation} {hosted : List Nat} {s t u : Session} {id : LaneId} {e : Seconds}
variable {ids : List LaneId} {visits : List (LaneId × Seconds)}

instance : DecidablePred s.Knows
  | .main => inferInstanceAs (Decidable True)
  | .side n => inferInstanceAs (Decidable (n < s.nextSide))

theorem firstVisits_append (hst : s.nextSide ≤ t.nextSide) (htu : t.nextSide ≤ u.nextSide) :
    firstVisits s u = firstVisits s t ++ firstVisits t u := by
  rw [firstVisits, range'_append_of_le hst htu, List.map_append]
  rfl

theorem not_knows_firstVisits {v : LaneId × Seconds} (h : v ∈ firstVisits s t) : ¬s.Knows v.1 := by
  obtain ⟨n, hn, rfl⟩ := List.mem_map.mp h
  exact Nat.not_lt_of_le (List.mem_range'_1.mp hn).1

/-- What a round over lanes comes to: which of them have a pass, which new ones have, and who carries out actions. -/
structure Visited (e : Seconds) (ids : List LaneId) (visits : List (LaneId × Seconds)) (s t : Session) : Prop where
  spans : ∃ acting, Spans acting s t ∧ acting.Sublist (visits.map (·.1))
  known : visits.filter (fun v => s.Knows v.1) = ids.map (·, e)
  fresh : visits.filter (fun v => ¬s.Knows v.1) = firstVisits s t

theorem Rounds.visited (hs : s.Numbered) (hids : ∀ id ∈ ids, s.Knows id) (h : Rounds e s ids visits t) :
    Visited e ids visits s t := by
  induction h with
  | nil => exact ⟨⟨[], (Touches.refl .main _).spans, .refl _⟩, rfl, by simp [firstVisits]⟩
  | @cons s t u id ids visits visits' hchain _ ih =>
    obtain ⟨hvisits, acting, hconfined, hacting⟩ := hchain.confined hs
    have hlater : ∀ {other}, s.Knows other → t.Knows other := fun hother => hother.later hconfined.nextSide
    obtain ⟨⟨acting', hspans', hacting'⟩, hknown', hfresh'⟩ :=
      ih (hconfined.numbered hs) fun other hother => hlater (hids other (List.mem_cons_of_mem _ hother))
    -- Of the later passes, those of lanes that are known after the first one are those of lanes known before.
    have hsame : ∀ v ∈ visits', s.Knows v.1 ↔ t.Knows v.1 := by
      refine fun v hv => ⟨hlater, fun hknows => ?_⟩
      have hmem : v ∈ ids.map (·, e) := hknown' ▸ List.mem_filter.mpr ⟨hv, decide_eq_true hknows⟩
      obtain ⟨other, hother, rfl⟩ := List.mem_map.mp hmem
      exact hids other (List.mem_cons_of_mem _ hother)
    have hfirst : (firstVisits s t).filter (fun v => s.Knows v.1) = [] :=
      List.filter_eq_nil_iff.mpr fun v hv => by simpa using not_knows_firstVisits hv
    have hfirst' : (firstVisits s t).filter (fun v => ¬s.Knows v.1) = firstVisits s t :=
      List.filter_eq_self.mpr fun v hv => by simpa using not_knows_firstVisits hv
    have hid : s.Knows id := hids id List.mem_cons_self
    refine ⟨⟨acting ++ acting', hconfined.toSpans.trans hspans', ?_⟩, ?_, ?_⟩
    · rw [List.map_append]
      exact hacting.append hacting'
    · have hrest : visits'.filter (fun v => s.Knows v.1) = ids.map (·, e) := by
        rw [← hknown']
        exact List.filter_congr fun v hv => by simp [hsame v hv]
      rw [List.filter_append, hrest, hvisits, List.filter_cons_of_pos (by simpa using hid), hfirst]
      rfl
    · have hrest : visits'.filter (fun v => ¬s.Knows v.1) = firstVisits t u := by
        rw [← hfresh']
        exact List.filter_congr fun v hv => by simp [hsame v hv]
      rw [List.filter_append, hrest, hvisits, List.filter_cons_of_neg (by simpa using hid), hfirst',
        firstVisits_append hconfined.nextSide hspans'.nextSide]

theorem knows_order (hs : s.Numbered) (h : id ∈ s.order) : s.Knows id ∧ (s.lane? id).isSome := by
  rcases List.mem_append.mp h with hside | hmain
  · obtain ⟨n, hn, rfl⟩ := List.mem_map.mp hside
    exact ⟨numbered_iff.mp hs n hn, lane?_side_isSome_iff.mpr hn⟩
  · obtain rfl := List.mem_singleton.mp hmain
    exact ⟨trivial, rfl⟩

theorem nodup_sides {numbers : List Nat} (h : numbers.Nodup) : (numbers.map LaneId.side).Nodup :=
  (List.nodup_map_iff fun _ _ heq => LaneId.side.inj heq).mpr h

theorem nodup_order (h : s.numbers.Pairwise (· < ·)) : s.order.Nodup := by
  refine List.nodup_append.mpr ⟨nodup_sides (h.imp Nat.ne_of_lt), List.nodup_singleton _, ?_⟩
  rintro _ hside _ hmain rfl
  obtain ⟨n, -, heq⟩ := List.mem_map.mp hside
  cases heq.trans (List.mem_singleton.mp hmain)

/-- No lane has two passes. -/
theorem Visited.nodup (h : Visited e s.order visits s t) (hs : s.Numbered) (hordered : s.numbers.Pairwise (· < ·)) :
    (visits.map (·.1)).Nodup := by
  have hnew : ((firstVisits s t).map (·.1)).Nodup := by
    rw [firstVisits, List.map_map]
    exact nodup_sides List.nodup_range'
  have hboth : (((s.order.map (·, e)) ++ firstVisits s t).map (·.1)).Nodup := by
    have hids : (s.order.map (·, e)).map (·.1) = s.order := by simp [Function.comp_def]
    rw [List.map_append, hids]
    refine List.nodup_append.mpr ⟨nodup_order hordered, hnew, ?_⟩
    rintro id hid _ hfresh rfl
    obtain ⟨v, hv, rfl⟩ := List.mem_map.mp hfresh
    exact not_knows_firstVisits hv (knows_order hs hid).1
  have hsplit := List.filter_append_perm (fun v => decide (s.Knows v.1)) visits
  have hfresh := h.fresh
  simp only [decide_not] at hfresh
  rw [h.known, hfresh] at hsplit
  exact (hsplit.map (·.1)).nodup_iff.mp hboth

/-- In a frame no lane carries out two actions. If time passes on the lanes, those that are there have a pass each, the
    side lanes in the order of their numbers and then the main lane; and the lanes that are added have a pass each,
    without any time, which ends before the action that adds them (`Chain.starts`). -/
theorem update_visits (hs : Arises c hosted s) (h : s.update e = some t) :
    (∃ log, t.events.toList = s.events.toList ++ log ∧ (log.filterMap Event.actingLane?).Nodup) ∧
      (s.Plays → ∃ visits u, Rounds e (s.aged e) (s.numbers.map .side ++ [.main]) visits u ∧
        t = { u with camera := u.camera.after e } ∧ s.numbers.Pairwise (· < ·) ∧
        visits.filter (fun v => (s.lane? v.1).isSome) = s.numbers.map (fun n => (.side n, e)) ++ [(.main, e)] ∧
        visits.filter (fun v => (s.lane? v.1).isNone) =
          (List.range' s.nextSide (t.nextSide - s.nextSide)).map fun n => (.side n, 0)) := by
  have hregular := hs.regular
  rw [update_eq] at h
  obtain ⟨u, hu, rfl⟩ := Option.map_eq_some_iff.mp h
  by_cases hplays : s.Plays
  · rw [if_pos hplays] at hu
    obtain ⟨visits, hrounds⟩ := passes_rounds hu
    have haged : (s.aged e).Numbered := hregular.numbered
    have hvisited : Visited e s.order visits s u := by
      have hknown : ∀ id ∈ (s.aged e).order, (s.aged e).Knows id := fun id hid => (knows_order haged hid).1
      obtain ⟨⟨acting, hspans, hacting⟩, hknown, hfresh⟩ := hrounds.visited haged hknown
      exact ⟨⟨acting, by simpa using (aged_touches s e .main).spans.trans hspans, hacting⟩, hknown, hfresh⟩
    -- A lane that has a pass is known if it was there.
    have hthere : ∀ v ∈ visits, (s.lane? v.1).isSome ↔ s.Knows v.1 := by
      refine fun v hv => ⟨fun hsome => ?_, fun hknows => ?_⟩
      · obtain ⟨l, hl⟩ := Option.isSome_iff_exists.mp hsome
        exact hregular.numbered.knows hl
      · have hmem : v ∈ s.order.map (·, e) :=
          hvisited.known ▸ List.mem_filter.mpr ⟨hv, decide_eq_true hknows⟩
        obtain ⟨id, hid, rfl⟩ := List.mem_map.mp hmem
        exact (knows_order hregular.numbered hid).2
    obtain ⟨acting, hspans, hacting⟩ := hvisited.spans
    obtain ⟨log, hlog, rfl⟩ := hspans.log
    have honce := hvisited.nodup hregular.numbered hregular.ordered
    refine ⟨⟨log, hlog, honce.sublist hacting⟩, fun _ => ⟨visits, u, hrounds, rfl, hregular.ordered, ?_, ?_⟩⟩
    · have hall : s.order.map (·, e) = s.numbers.map (fun n => (.side n, e)) ++ [(.main, e)] := by
        simp [order, Function.comp_def]
      rw [← hall, ← hvisited.known]
      exact List.filter_congr fun v hv => by simp [← hthere v hv]
    · refine Eq.trans (List.filter_congr fun v hv => ?_) hvisited.fresh
      rw [Bool.eq_iff_iff]
      simp [← hthere v hv]
  · rw [if_neg hplays] at hu
    cases hu
    exact ⟨⟨[], by simp, .nil⟩, fun hyes => absurd hyes hplays⟩

end Session

/-- A side lane adds another one in a frame in which the main lane waits. -/
theorem update_visits_company :
    ∃ c s t, Document.company.load = .ok c ∧ Session.Arises c [] s ∧ s.update 1 = some t ∧ s.Plays ∧
      s.numbers = [1] ∧ t.numbers = [1, 2] ∧
      (∃ log, t.events.toList = s.events.toList ++ log ∧ (log.filterMap Event.actingLane?).Nodup) ∧
      (s.Plays → ∃ visits u, Session.Rounds 1 (s.aged 1) (s.numbers.map .side ++ [.main]) visits u ∧
        t = { u with camera := u.camera.after 1 } ∧ s.numbers.Pairwise (· < ·) ∧
        visits.filter (fun v => (s.lane? v.1).isSome) = s.numbers.map (fun n => (.side n, 1)) ++ [(.main, 1)] ∧
        visits.filter (fun v => (s.lane? v.1).isNone) =
          (List.range' s.nextSide (t.nextSide - s.nextSide)).map fun n => (.side n, 0)) := by
  have hplayed : ∃ c, Document.company.load = .ok c ∧
      ((Session.start c (.scripted .zeros) {}).steps [.setTopic (some ⟨0⟩), .setRunning true, .update 1]).any fun s =>
        decide s.Plays && decide (s.numbers = [1]) && (s.update 1).any fun t => decide (t.numbers = [1, 2]) :=
    ⟨_, rfl, by decide +kernel⟩
  obtain ⟨c, s, hc, harises, hall⟩ := Session.exists_arises (by simp) hplayed
  simp only [Bool.and_eq_true, decide_eq_true_eq] at hall
  obtain ⟨⟨hplays, hnumbers⟩, hupdate⟩ := hall
  obtain ⟨t, ht, hadded⟩ := (Option.any_eq_true _ _).mp hupdate
  exact ⟨c, s, t, hc, harises, ht, hplays, hnumbers, of_decide_eq_true hadded, Session.update_visits harises ht⟩

end Dialogue
