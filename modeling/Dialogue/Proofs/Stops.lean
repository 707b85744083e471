import Dialogue.Player.Report
import Dialogue.Proofs.Acknowledgement
import Dialogue.Proofs.Clocks

/-! Runs that stop at a line of somebody who is not there. The session has stopped then, but the lanes that come later in
    the update have their passes all the same. The main lane is the last of them: if it is at its end and nobody speaks,
    playback ends as well, and the run counts as completed (`completed_iff_ends`). -/

namespace Dialogue
namespace Session
variable {q s t u : Session} {id : LaneId} {ids : List LaneId} {e e' : Seconds} {l : Lane} {ref : ActionRef}
variable {a : Action ListId} {request : Request} {visits : List (LaneId × Seconds)}

/-! ### The end of playback -/

/-- Playback has ended, as the log tells. -/
def Ended (s : Session) : Prop := .ended ∈ s.events.toList

/-- If the main lane has its pass now, it is at its end, and nobody speaks. -/
structure Ends (s : Session) : Prop where
  next : (s.opened .main).main.action? = none
  flat : (s.opened .main).main.depth ≤ 1
  straight : (s.opened .main).main.top?.any (·.looping) = false
  silent : (s.opened .main).allSilent

/-- Playback has not ended meanwhile, and a session that has stopped stays so. -/
structure Lasts (s t : Session) : Prop where
  ended : t.Ended ↔ s.Ended
  stopped : s.running = false → t.running = false

theorem Lasts.refl (s : Session) : Lasts s s := ⟨.rfl, fun h => h⟩

theorem Lasts.trans (h : Lasts s t) (h' : Lasts t u) : Lasts s u := ⟨h'.ended.trans h.ended, h'.stopped ∘ h.stopped⟩

theorem Alters.lasts (h : Alters id s t) : Lasts s t := by
  obtain ⟨log, hlog, -, hgoes⟩ := h.log
  exact ⟨by simp [Ended, hlog, hgoes], h.stopped⟩

theorem lasts_removeLane (n : Nat) : Lasts s (s.removeLane n) := ⟨by simp [Ended, removeLane, record], fun h => h⟩

theorem lasts_addLane : Lasts s (s.addLane l) := ⟨by simp [Ended, addLane, record], fun h => h⟩

theorem Carries.lasts (h : s.Carries id e l ref a) : Lasts s (s.carried id e l ref a) := by
  obtain ⟨r, htouch, hcarried, -, -⟩ := carried_touches h
  have hnote : Lasts r (r.note id ref a (some { topic := l.topic?, action := ref })) :=
    ⟨by simp [Ended, note, record], fun h => h⟩
  exact hcarried ▸ htouch.lasts.trans hnote

theorem Idles.lasts (h : s.Idles id e t) (hgoes : id = .main → ¬s.Ends) : Lasts s t := by
  have hopened := (opened_touches s id).lasts
  cases h with
  | still => exact hopened
  | timed => exact hopened.trans (Touches.change fun k _ => .timed k _ : Touches id (s.opened id) _).lasts
  | leaves => exact hopened.trans (Touches.advance : Touches id (s.opened id) _).lasts
  | finishes hlane hend hflat hstraight =>
    cases id with
    | side n => exact hopened.trans (lasts_removeLane n)
    | main =>
      obtain rfl := Option.some.inj hlane
      have hspeaks : ¬(s.opened .main).allSilent := fun hsilent => hgoes rfl ⟨hend, hflat, hstraight, hsilent⟩
      have hsame : (s.opened .main).finish .main = s.opened .main := if_neg hspeaks
      exact hsame.symm ▸ hopened

/-- A pass ends playback only if the main lane is at its end. -/
theorem Chain.lasts (h : Chain s id e visits t) (hgoes : id = .main → ¬s.Ends) : Lasts s t := by
  induction h with
  | @alone s t id e hquiet h =>
    cases pass_alone hquiet h with
    | acts hcarries _ _ hdone => exact hcarries.lasts.trans hdone.primed.lasts
    | idles hidles => exact hidles.lasts hgoes
  | @starts s u id e l ref a topic visits h htopic hrest ih =>
    exact h.lasts.trans (lasts_addLane.trans ((ih nofun).trans (resumed_touches u id).lasts))

/-- When the main lane is at its end and nobody speaks, its pass ends playback. -/
theorem pass_of_ends (h : s.Ends) : s.pass .main e = some ({ s.opened .main with running := false }.record .ended) := by
  have hlane : (s.opened .main).lane? .main = some (s.opened .main).main := rfl
  rw [pass, patience, passWithin_succ, hlane]
  simp only [h.next, h.straight, Bool.false_eq_true, ↓reduceIte, if_neg (Nat.not_lt.mpr h.flat)]
  exact congrArg some (if_pos h.silent)

theorem foldlM_lasts (hids : .main ∉ ids) (h : ids.foldlM (fun s id => s.pass id e) s = some t) : Lasts s t := by
  refine foldlM_preserves (fun id hid r u hr hu => ?_) (.refl s) h
  obtain ⟨visits, hchain⟩ := Chain.of_passWithin hu
  exact hr.trans (hchain.lasts fun hmain => absurd (hmain ▸ hid) hids)

/-- An update ends playback if the side lanes leave the main lane at its end, and then the session stops. -/
theorem update_ends (hplays : s.Plays) (h : s.update e = some t) :
    ∃ u, (s.numbers.map .side).foldlM (fun r id => r.pass id e) (s.aged e) = some u ∧
      (u.Ends → t.Ended ∧ t.running = false) ∧ (¬u.Ends → Lasts s t) := by
  rw [update_eq, if_pos hplays, passes_eq] at h
  obtain ⟨v, hv, rfl⟩ := Option.map_eq_some_iff.mp h
  have horder : (s.aged e).order = s.numbers.map .side ++ [.main] := rfl
  rw [horder, List.foldlM_append] at hv
  obtain ⟨u, hu, hmain⟩ := Option.bind_eq_some_iff.mp hv
  have hpass : u.pass .main e = some v := by simpa using hmain
  refine ⟨u, hu, fun hends => ?_, fun hgoes => ?_⟩
  · cases (pass_of_ends hends).symm.trans hpass
    exact ⟨by simp [Ended, record], rfl⟩
  · obtain ⟨visits, hchain⟩ := Chain.of_passWithin hpass
    have hsides : Lasts (s.aged e) u := foldlM_lasts (by simp) hu
    have hlasts := (aged_touches s e .main).lasts.trans (hsides.trans (hchain.lasts fun _ => hgoes))
    exact ⟨hlasts.ended, hlasts.stopped⟩

/-- If playback has ended, the session has stopped. -/
def Sealed (s : Session) : Prop := s.Ended → s.running = false

theorem Sealed.not_ended (hs : s.Sealed) (hrunning : s.running) : ¬s.Ended :=
  fun hended => Bool.false_ne_true ((hs hended).symm.trans hrunning)

theorem update_ended_iff (hs : s.Sealed) (hplays : s.Plays) (h : s.update e = some t) :
    ∃ u, (s.numbers.map .side).foldlM (fun r id => r.pass id e) (s.aged e) = some u ∧ (t.Ended ↔ u.Ends) := by
  obtain ⟨u, hu, hends, hlasts⟩ := update_ends hplays h
  refine ⟨u, hu, fun hended => ?_, fun h => (hends h).1⟩
  by_contra hgoes
  exact hs.not_ended hplays.2.1 ((hlasts hgoes).ended.mp hended)

theorem Sealed.update (hs : s.Sealed) (h : s.update e = some t) : t.Sealed := by
  by_cases hplays : s.Plays
  · obtain ⟨u, -, hends, hlasts⟩ := update_ends hplays h
    intro hended
    by_cases hgoes : u.Ends
    · exact (hends hgoes).2
    · exact (hlasts hgoes).stopped (hs ((hlasts hgoes).ended.mp hended))
  · rw [update_eq, if_neg hplays] at h
    cases h
    exact hs

theorem Sealed.skipSpeech {left taken count : Nat} (hs : s.Sealed) (h : s.skipSpeech left taken = some (t, count)) :
    t.Sealed := skipSpeech_preserves (fun _ _ hr hu => hr.update hu) hs h

/-! ### Passes in an update -/

theorem Due.plays (h : s.Due (.op (.update e)) q id e') : s.Plays := by
  induction h with
  | frame _ hplays => exact hplays
  | added hlane => cases hlane
  | started _ _ _ ih => exact ih

/-- When the main lane is about to have its pass, the side lanes have had theirs. -/
theorem Due.main (h : s.Due (.op (.update e)) q .main e') :
    (s.numbers.map .side).foldlM (fun r id => r.pass id e) (s.aged e) = some q := by
  cases h with
  | @frame _ _ before after _ hrequest _ horder h =>
    cases hrequest
    have hmain : LaneId.main ∉ s.numbers.map .side := by simp
    obtain ⟨hbefore, -⟩ := (List.append_cons_inj_of_notMem hmain List.not_mem_nil).mp horder
    exact hbefore ▸ h

/-- In a frame the lanes are there when they have their passes. -/
theorem frame_sound {before rest : List LaneId} (hs : s.Sound) (hplays : s.Plays) (horder : s.order = before ++ rest)
    (h : before.foldlM (fun r id => r.pass id e) (s.aged e) = some q) :
    q.Sound ∧ q.hasScript ∧ ∀ other ∈ rest, q.Knows other := by
  have haged : (s.aged e).Sound := ⟨hs.scripted, hs.numbered⟩
  have hknows : ∀ other ∈ before ++ rest, (s.aged e).Knows other := fun other hother =>
    (knows_order hs.numbered (horder ▸ hother)).1
  have hbefore := foldlM_turns haged hplays.1 (fun other hother => hknows other (List.mem_append_left _ hother)) h
  exact ⟨haged.later hbefore.since, hbefore.since.script.hasScript.trans hplays.1, fun other hother =>
    (hknows other (List.mem_append_right _ hother)).later hbefore.since.nextSide⟩

theorem Due.sound (h : s.Due (.op (.update e)) q id e') (hs : s.Sound) : q.Sound ∧ q.hasScript := by
  induction h with
  | frame _ hplays horder h =>
    obtain ⟨hq, hscript, -⟩ := frame_sound hs hplays horder h
    exact ⟨hq, hscript⟩
  | added hlane => cases hlane
  | @started r id e l ref a topic _ h _ ih =>
    obtain ⟨hr, hscript⟩ := ih
    obtain ⟨r', htouch, hcarried, -, -⟩ := carried_touches h
    have halike : Alike r (r.carried id e l ref a) := .carried
    have hlists : (r.carried id e l ref a).hasScript = r.hasScript := hcarried ▸ htouch.lists.hasScript
    exact ⟨⟨hr.scripted.imp fun chance hchance => halike.interpreter.trans hchance,
      (started_topicLane hr.numbered h topic).1⟩, hlists.trans hscript⟩

/-- A lane that has started another one goes on once that has had its pass. -/
theorem Carries.resumes {topic : TopicId} (h : q.Carries id e l ref a) (hq : q.Numbered) (hscript : q.hasScript)
    (htopic : q.sideTopic? a = some topic) (hrest : Chain (q.started id e l ref a topic) (.side q.nextSide) 0 visits u) :
    Turns u ((u.advance id).changeLane id Lane.prime) := by
  obtain ⟨r, htouch, hcarried, hlane, ha⟩ := carried_touches h
  obtain ⟨_, _, _, -, hkind, -⟩ := sideTopic?_eq_some htopic
  obtain ⟨hnum, -⟩ := started_topicLane hq h topic
  obtain ⟨-, acting, hconfined, -⟩ := hrest.confined hnum
  have hl : (q.carried id e l ref a).lane? id = some { l with waiting := false, time := l.time + e } := by
    rw [hcarried, ← hlane]
    cases id <;> rfl
  have hcarrying : (q.carried id e l ref a).Numbered := hcarried ▸ (htouch.spans.numbered hq : r.Numbered)
  have hknows := hcarrying.knows hl
  have hne : id ≠ .side q.nextSide := hknows.ne (Nat.le_of_eq (nextSide_carried h)) _ (Nat.le_refl _)
  have hadd := Effect.addLane hcarrying ((q.carried id e l ref a).topicLane topic (some ref))
  have hsame : u.lane? id = (q.started id e l ref a topic).lane? id :=
    hconfined.others id hne (hknows.later hadd.nextSide)
  have hat : u.At id l.cursors ref a := by
    refine ⟨?_, h.next, ?_⟩
    · have hothers : (q.started id e l ref a topic).cursors? id = (q.carried id e l ref a).cursors? id :=
        hadd.others id (by rw [nextSide_carried h]; exact hne)
      rw [cursors?, hsame]
      refine hothers.trans ?_
      rw [cursors?, hl]
      rfl
    · rw [hconfined.lists.action?]
      show (q.carried id e l ref a).action? ref = some a
      rw [hcarried]
      exact ha
  have hscript' : u.hasScript := by
    rw [hconfined.lists.hasScript]
    show (q.carried id e l ref a).hasScript
    rw [hcarried]
    exact htouch.lists.hasScript.trans hscript
  have hgo : Turn id u (u.advance id) :=
    hat.advance hscript' (by simp [Action.isJump, hkind]) (by simp [Action.isCommand, hkind])
  exact (Course.turn trivial hgo).trans (.turn trivial (.calm (.clock fun _ => rfl) quiet_changeLane))

/-- After a pass in an update the session goes on by turns up to the end of the update. -/
theorem Due.rest (h : s.Due (.op (.update e)) q id e') (hs : s.Sound) (hupdate : s.update e = some t) :
    ∃ visits u, Chain q id e' visits u ∧ Turns u t := by
  induction h with
  | @frame e r before after id hrequest hplays horder h =>
    cases hrequest
    obtain ⟨hr, hscript, hknows⟩ := frame_sound hs hplays horder h
    rw [update_eq, if_pos hplays, passes_eq] at hupdate
    obtain ⟨w, hw, rfl⟩ := Option.map_eq_some_iff.mp hupdate
    have horder' : (s.aged e).order = before ++ id :: after := horder
    rw [horder', List.foldlM_append, h] at hw
    obtain ⟨v, hv, hrest⟩ : ∃ v, r.pass id e = some v ∧ after.foldlM (fun r id => r.pass id e) v = some w :=
      Option.bind_eq_some_iff.mp hw
    obtain ⟨visits, hchain⟩ := Chain.of_passWithin hv
    have hsince := (pass_turns hr hscript (hknows id List.mem_cons_self) hv).since
    have hturns : Turns v w := foldlM_turns (hr.later hsince) (hsince.script.hasScript.trans hscript)
      (fun other hother => (hknows other (List.mem_cons_of_mem _ hother)).later hsince.nextSide) hrest
    refine ⟨visits, v, hchain, hturns.trans ?_⟩
    exact .turn trivial (.calm (.calm .main ⟨rfl, rfl, rfl, rfl, fun h => h⟩ rfl rfl rfl rfl) ⟨rfl, rfl, rfl⟩)
  | added hlane => cases hlane
  | @started r id e l ref a topic hdue h htopic ih =>
    obtain ⟨visits, v, hchain, hturns⟩ := ih
    cases hchain with
    | alone hquiet => cases (hquiet l ref a h).symm.trans htopic
    | @starts _ u _ _ _ _ _ _ visits h' htopic' hrest =>
      cases (carries_iff.mp h).symm.trans (carries_iff.mp h')
      cases htopic.symm.trans htopic'
      obtain ⟨hr, hscript⟩ := hdue.sound hs
      exact ⟨visits, u, hrest, (h.resumes hr.numbered hscript htopic hrest).trans hturns⟩

theorem Turns.not_running (h : Turns s t) (hs : s.running = false) : t.running = false := by
  induction h with
  | refl => exact hs
  | tail _ hturn ih =>
    obtain ⟨_, _, hturn⟩ := hturn
    exact hturn.not_running ih

/-! ### Lines of nobody -/

/-- Whether an action is a line of somebody who is not there. -/
def refuses (s : Session) (a : Action ListId) : Bool :=
  match a.kind with
  | .cue (.speak actor _ _ _) => (s.world.actorIndex? actor).isNone
  | _ => false

/-- Carrying out such a line tells the host who is not there, and stops the session. -/
theorem pass_of_refuses (h : s.Carries id e l ref a) (hscripted : ∃ chance, s.interpreter = .scripted chance)
    (hrefuses : s.refuses a) :
    ∃ t, s.pass id e = some t ∧ t.running = false ∧ ∃ actor, t.info = some (Info.noActor actor) := by
  obtain ⟨chance, hchance⟩ := hscripted
  have halike : Alike s (s.carried id e l ref a) := .carried
  unfold refuses at hrefuses
  split at hrefuses
  · rename_i actor _ _ _ hkind
    have hnobody : (s.carried id e l ref a).world.actorIndex? actor = none := by
      rw [halike.world]
      exact Option.isNone_iff_eq_none.mp hrefuses
    rw [pass, patience, passWithin_of_carries h]
    simp only [execute, halike.interpreter, hchance, hkind, perform, hnobody, Option.map_some]
    exact ⟨_, rfl, by cases id <;> rfl, actor, by cases id <;> rfl⟩
  · cases hrefuses

theorem Carries.stops (h : q.Carries id e l ref a) (hscripted : ∃ chance, q.interpreter = .scripted chance)
    (hrefuses : q.refuses a) (hchain : Chain q id e visits t) : t.running = false := by
  obtain ⟨u, hu, hstopped, -⟩ := pass_of_refuses h hscripted hrefuses
  have hplain : q.sideTopic? a = none := sideTopic?_eq_none fun _ _ hkind => by simp [refuses, hkind] at hrefuses
  cases hu.symm.trans (hchain.pass_of_carries h hplain)
  exact hstopped

/-- A lane that carries out an action is not at its end. -/
theorem Carries.not_ends (h : s.Carries .main e l ref a) : ¬s.Ends := by
  intro hends
  obtain rfl := Option.some.inj h.lane
  cases hends.next.symm.trans h.next

theorem skipSpeech_of_stopped {left taken : Nat} (h : s.running = false) :
    s.skipSpeech left taken = some (s, taken) := by
  cases left with
  | zero => rfl
  | succ left => simp [skipSpeech, h]

theorem skipSpeech_add {count more taken : Nat} (h : s.skipSpeech count taken = some (t, taken + count)) :
    s.skipSpeech (count + more) taken = t.skipSpeech more (taken + count) := by
  induction count generalizing s taken with
  | zero =>
    cases h
    rw [Nat.zero_add, Nat.add_zero]
  | succ count ih =>
    rw [Nat.succ_add, skipSpeech]
    rw [skipSpeech] at h
    split at h
    · rename_i hspeaks
      rw [if_pos hspeaks]
      split at h
      · cases h
      · rename_i u hu
        have hnext : taken + (count + 1) = taken + 1 + count := by omega
        rw [hnext] at h ⊢
        exact ih h
    · -- No update has been made then.
      have hsame := congrArg Prod.snd (Option.some.inj h)
      simp only at hsame
      omega

/-- A new session that plays a topic. -/
def playing (c : Conversation) (chance : Chance) (options : Options) (topic : TopicId) : Session :=
  { (start c (.scripted chance) options).setTopic (some topic) with running := true }

theorem events_playing {c : Conversation} {chance : Chance} {options : Options} {topic : TopicId} :
    (playing c chance options topic).events.toList = [.rewound] := by
  let chosen : Session := { start c (.scripted chance) options with topic := some topic, preview := none }
  have hchosen : (start c (.scripted chance) options).setTopic (some topic) = chosen.rewind := if_neg nofun
  have hlog : chosen.rewind.events.toList = [.rewound] := events_rewind
  rw [playing, hchosen, hlog]

end Session

namespace Run
variable {c : Conversation} {chance : Chance} {options : Options} {topic : TopicId} {l : Limits} {p r r' : Run}
variable {q s t u : Session} {id : LaneId} {e e' : Seconds} {k : Lane} {ref : ActionRef} {a : Action ListId}

/-! ### Runs -/

/-- Playback has ended, as the logs tell. -/
def Ended (r : Run) : Prop := (∃ x ∈ r.log, x.event = .ended) ∨ r.session.Ended

/-- Playback has not ended meanwhile, and a session that has stopped stays so. -/
structure Lasts (r p : Run) : Prop where
  ended : p.Ended ↔ r.Ended
  stopped : r.session.running = false → p.session.running = false

theorem Lasts.trans {p' : Run} (h : Lasts r p) (h' : Lasts p p') : Lasts r p' :=
  ⟨h'.ended.trans h.ended, h'.stopped ∘ h.stopped⟩

theorem Lasts.of_session (hlog : p.log = r.log) (h : r.session.Lasts p.session) : Lasts r p :=
  ⟨by rw [Ended, Ended, hlog, h.ended], h.stopped⟩

theorem answerChoice_lasts : Lasts r r.answerChoice := by
  unfold answerChoice
  split
  · exact .of_session rfl (.refl _)
  · obtain ⟨_, halters⟩ := Session.select_alters r.session
      (if r.choices.headD 0 < ‹Choice›.offers.length then r.choices.headD 0 else 0)
    exact .of_session rfl halters.lasts

theorem acknowledge_lasts : Lasts r r.acknowledge := by
  unfold acknowledge
  split
  · exact .of_session rfl (.refl _)
  · have htaken : r.session.Lasts { r.session with info := none } := ⟨.rfl, fun h => h⟩
    refine .of_session rfl ?_
    simp only
    split
    · exact htaken.trans (Session.Touches.advance : Session.Touches .main _ _).lasts
    · exact htaken

/-- What a session has logged has happened in the frame. -/
theorem exists_mem_collect_log {event : Event} :
    (∃ x ∈ r.collect.log, x.event = event) ↔ (∃ x ∈ r.log, x.event = event) ∨ event ∈ r.session.events.toList := by
  simp only [collect, Array.mem_append, Array.mem_mapIdx, or_and_right, exists_or, Array.mem_toList_iff]
  refine or_congr_right ⟨?_, fun h => ?_⟩
  · rintro ⟨_, ⟨i, hi, rfl⟩, rfl⟩
    exact Array.getElem_mem hi
  · obtain ⟨i, hi, hevent⟩ := Array.mem_iff_getElem.mp h
    exact ⟨_, ⟨i, hi, rfl⟩, hevent⟩

theorem collect_lasts : Lasts r r.collect := by
  have hempty : ¬r.collect.session.Ended := List.not_mem_nil
  exact ⟨by rw [Ended, or_iff_left hempty, exists_mem_collect_log]; rfl, fun h => h⟩

/-- The frame of a run that has come to `t` by its updates. -/
def closing (r : Run) (t : Session) : Run :=
  { r with session := t, frame := r.frame + 1 }.answerChoice.acknowledge.collect

theorem closing_lasts (r : Run) (t : Session) : Lasts { r with session := t, frame := r.frame + 1 } (r.closing t) :=
  answerChoice_lasts.trans (acknowledge_lasts.trans collect_lasts)

/-- A run that stops has been completed if playback has ended in its last frame. -/
theorem isCompleted_closing (hgoes : ¬r.Ended) (hstopped : t.running = false) :
    (r.closing t).isCompleted ↔ t.Ended := by
  have hlasts := closing_lasts r t
  have hempty : ¬(r.closing t).session.Ended := List.not_mem_nil
  have hlogged : (∃ x ∈ (r.closing t).log, x.event = .ended) ↔ t.Ended :=
    (or_iff_left hempty).symm.trans (hlasts.ended.trans (or_iff_right fun hlogged => hgoes (.inl hlogged)))
  rw [← hlogged, isCompleted, hlasts.stopped hstopped, Bool.not_false, Bool.and_true, Array.any_eq_true']
  simp only [decide_eq_true_eq]

/-- If playback has ended, the session has stopped. -/
def Sealed (r : Run) : Prop := r.Ended → r.session.running = false

theorem Sealed.not_ended (hr : r.Sealed) (hrunning : r.session.running) : ¬r.Ended :=
  fun hended => Bool.false_ne_true ((hr hended).symm.trans hrunning)

theorem Sealed.lasts (hr : r.Sealed) (h : Lasts r p) : p.Sealed := fun hended => h.stopped (hr (h.ended.mp hended))

theorem Sealed.next (hr : r.Sealed) (hrunning : r.session.running) (h : r.next l = some r') : r'.Sealed := by
  have hgoes := hr.not_ended hrunning
  rw [next_eq] at h
  obtain ⟨p, hshown, rfl⟩ := Option.map_eq_some_iff.mp h
  obtain ⟨s, hupdate, hrest⟩ := Option.bind_eq_some_iff.mp hshown
  obtain ⟨t, hskip, rfl⟩ := Option.map_eq_some_iff.mp hrest
  have hs : s.Sealed := Session.Sealed.update (fun hended => absurd (.inr hended) hgoes) hupdate
  have ht : t.Sealed := by
    split at hskip
    · obtain ⟨⟨t, count⟩, hfast, rfl⟩ := Option.map_eq_some_iff.mp hskip
      exact hs.skipSpeech hfast
    · cases hskip
      exact hs
  refine Sealed.lasts (fun hended => ?_) (closing_lasts r t)
  exact ht (hended.resolve_left fun hlogged => hgoes (.inl hlogged))

theorem play_stopped {left : Nat} (h : r.session.running = false) : r.play l left = some r := by
  cases left with
  | zero => rfl
  | succ left => simp [play, h]

theorem play_add {count more : Nat} : r.play l (count + more) = (r.play l count).bind (play l more) := by
  induction count generalizing r with
  | zero =>
    rw [Nat.zero_add]
    rfl
  | succ count ih =>
    rw [Nat.succ_add, play, play]
    split
    · cases hnext : r.next l with
      | none => rfl
      | some r' => exact ih
    · rename_i hstopped
      exact (play_stopped (by simpa using hstopped)).symm

theorem Played.play {count : Nat} (hr : Played c l r) (h : r.play l count = some r') : Played c l r' := by
  induction count generalizing r with
  | zero =>
    cases h
    exact hr
  | succ count ih =>
    rw [Run.play] at h
    split at h
    · split at h
      · cases h
      · rename_i hrunning _ _ hnext
        exact ih (.next hr hrunning hnext) h
    · cases h
      exact hr

theorem Played.sealed (h : Played c l r) : r.Sealed := by
  induction h with
  | start chance options topic =>
    rintro (⟨x, hx, -⟩ | hended)
    · cases List.not_mem_nil (Array.mem_toList_iff.mpr hx)
    · have hlog : Event.ended ∈ (Session.playing c chance options topic).events.toList := hended
      simp [Session.events_playing] at hlog
  | next _ hrunning h ih => exact ih.next hrunning h

/-- The sessions that are updated in a frame, with the times that pass. -/
inductive Updates (l : Limits) (r : Run) : Session → Seconds → Prop where
  | frame : Updates l r r.session l.step
  /-- Speech is skipped, and `count` updates have been made for that. -/
  | skip {s t : Session} {count : Nat} (hskips : l.fastForward) (hs : r.session.update l.step = some s)
      (hcount : count < s.options.fastForwardLimit) (ht : s.skipSpeech count 0 = some (t, count))
      (hspeaks : t.running ∧ t.paused = false ∧ t.allSilent = false) : Updates l r t t.options.fastForwardStep

theorem Updates.sound (h : r.Updates l s e) (hr : r.session.Sound) : s.Sound := by
  cases h with
  | frame => exact hr
  | skip _ hs _ ht =>
    have hframe := Session.update_turns hr hs
    exact (hr.later hframe.since).later (Session.skipSpeech_turns _ _ (hr.later hframe.since) ht).since

theorem Updates.sealed (h : r.Updates l s e) (hr : r.session.Sealed) : s.Sealed := by
  cases h with
  | frame => exact hr
  | skip _ hs _ ht => exact (hr.update hs).skipSpeech ht

/-- When an update stops the session, nothing is updated any more in its frame. -/
theorem next_of_stops (h : r.Updates l s e) (hstops : ∀ t, s.update e = some t → t.running = false) :
    r.next l = (s.update e).map r.closing := by
  rw [next_eq, shown]
  cases h with
  | frame =>
    cases hupdate : r.session.update l.step with
    | none => rfl
    | some t =>
      have hskip : (if l.fastForward then (·.1) <$> t.fastForward else some t) = some t := by
        split
        · rw [Session.fastForward, Session.skipSpeech_of_stopped (hstops t hupdate)]
          rfl
        · rfl
      simp only [Option.bind_eq_bind, Option.bind_some, hskip, Option.map_some]
      rfl
  | @skip v _ count hskips hv hcount ht hspeaks =>
    obtain ⟨more, hmore⟩ := Nat.exists_eq_add_of_lt hcount
    have hskip : (·.1) <$> v.fastForward = s.update s.options.fastForwardStep := by
      rw [Session.fastForward, hmore, Nat.add_assoc, Session.skipSpeech_add (by simpa using ht), Session.skipSpeech,
        if_pos (by simpa [and_assoc] using hspeaks)]
      cases hupdate : s.update s.options.fastForwardStep with
      | none => rfl
      | some t =>
        simp only [Session.skipSpeech_of_stopped (hstops t hupdate)]
        rfl
    simp only [Option.bind_eq_bind, hv, Option.bind_some, hskips, ↓reduceIte, hskip, Option.map_map]
    rfl

/-- A run stops with the update that stops the session, if that ends at all. -/
theorem run_of_stops {s₀ : Session} {n : Nat} (hr : (Run.start s₀ l).play l n = some r) (hn : n < l.maxFrames)
    (hrunning : r.session.running) (hs : r.Updates l s e) (hstops : ∀ t, s.update e = some t → t.running = false) :
    s₀.run l = (s.update e).map r.closing := by
  obtain ⟨more, hmore⟩ := Nat.exists_eq_add_of_lt hn
  rw [Session.run, hmore, Nat.add_assoc, play_add, hr, Option.bind_some, play, if_pos hrunning,
    next_of_stops hs hstops]
  cases hupdate : s.update e with
  | none => rfl
  | some t => exact play_stopped ((closing_lasts r t).stopped (hstops t hupdate))

/-- A line of somebody who is not there is carried out in some update of a run. The run is over then, if the update ends
    at all, and the session has stopped. The run counts as completed exactly if, in that update, the side lanes leave the
    main lane at its end with nobody speaking; so it does not if the line is on the main lane. -/
theorem completed_iff_ends {n : Nat} (hr : (Run.start (Session.playing c chance options topic) l).play l n = some r)
    (hn : n < l.maxFrames) (hrunning : r.session.running) (hs : r.Updates l s e)
    (hdue : s.Due (.op (.update e)) q id e') (hcarries : q.Carries id e' k ref a) (hrefuses : q.refuses a) :
    ((Session.playing c chance options topic).run l).isSome = (s.update e).isSome ∧
      ∀ fin, (Session.playing c chance options topic).run l = some fin →
        fin.session.running = false ∧ (id = .main → fin.isCompleted = false) ∧
        ∃ u, (s.numbers.map .side).foldlM (fun s id => s.pass id e) (s.aged e) = some u ∧
          (fin.isCompleted ↔ u.Ends) := by
  have hstart : Played c l (Run.start (Session.playing c chance options topic) l) := .start chance options topic
  have hplayed : Played c l r := hstart.play hr
  have hgoes : ¬r.Ended := hplayed.sealed.not_ended hrunning
  have hsound := hs.sound hplayed.sound.1
  have hstops : ∀ t, s.update e = some t → t.running = false := by
    intro t hupdate
    obtain ⟨visits, u, hchain, hturns⟩ := hdue.rest hsound hupdate
    exact hturns.not_running (hcarries.stops (hdue.sound hsound).1.scripted hrefuses hchain)
  rw [run_of_stops hr hn hrunning hs hstops]
  refine ⟨Option.isSome_map .., fun fin hfin => ?_⟩
  obtain ⟨t, hupdate, rfl⟩ := Option.map_eq_some_iff.mp hfin
  have hsealed : s.Sealed := hs.sealed fun hended => absurd (.inr hended) hgoes
  obtain ⟨u, hu, hends⟩ := Session.update_ended_iff hsealed hdue.plays hupdate
  have hcompleted : (r.closing t).isCompleted ↔ u.Ends := (isCompleted_closing hgoes (hstops t hupdate)).trans hends
  refine ⟨(closing_lasts r t).stopped (hstops t hupdate), fun hmain => ?_, u, hu, hcompleted⟩
  subst hmain
  obtain rfl := Option.some.inj (hdue.main.symm.trans hu)
  exact Bool.eq_false_iff.mpr fun h => hcarries.not_ends (hcompleted.mp h)

/-- A run whose second frame starts with a side lane that carries out such a line. -/
theorem exists_refusal (d : Document) (topic : TopicId) (l : Limits) (completed : Bool)
    (h : ∃ c, d.load = .ok c ∧
      ((Run.start (Session.playing c .zeros {} topic) l).play l 1).any fun r =>
        r.session.running && decide r.session.Plays && decide (r.session.order = [.side 1, .main]) &&
          ((r.session.aged l.step).carrying? (.side 1) l.step).any (fun x => (r.session.aged l.step).refuses x.2.2) &&
          ((Session.playing c .zeros {} topic).run l).any fun fin => fin.isCompleted == completed) :
    ∃ c r k ref a fin, d.load = .ok c ∧ (Run.start (Session.playing c .zeros {} topic) l).play l 1 = some r ∧
      r.session.running ∧ r.session.Due (.op (.update l.step)) (r.session.aged l.step) (.side 1) l.step ∧
      (r.session.aged l.step).Carries (.side 1) l.step k ref a ∧ (r.session.aged l.step).refuses a ∧
      (Session.playing c .zeros {} topic).run l = some fin ∧ fin.isCompleted = completed := by
  obtain ⟨c, hc, hplayed⟩ := h
  obtain ⟨r, hr, hall⟩ := (Option.any_eq_true _ _).mp hplayed
  simp only [Bool.and_eq_true, decide_eq_true_eq] at hall
  obtain ⟨⟨⟨⟨hrunning, hplays⟩, horder⟩, hcarrying⟩, hrun⟩ := hall
  obtain ⟨⟨k, ref, a⟩, hcarries, hrefuses⟩ := (Option.any_eq_true _ _).mp hcarrying
  obtain ⟨fin, hfin, hcompleted⟩ := (Option.any_eq_true _ _).mp hrun
  have hdue : r.session.Due (.op (.update l.step)) (r.session.aged l.step) (.side 1) l.step :=
    @Session.Due.frame r.session _ l.step _ [] [.main] (.side 1) rfl hplays horder rfl
  exact ⟨c, r, k, ref, a, fin, hc, hr, hrunning, hdue, Session.carries_iff.mpr hcarries, hrefuses, hfin,
    beq_iff_eq.mp hcompleted⟩

end Run

/-- Topics that start a side lane with a line of somebody who is not there. One of them is at its end then. -/
def Document.pier : Document where
  profiles := []
  values := .empty
  gameCommands := .empty
  files := [{
    id := "tale"
    topics := [
      { id := "leave", block := ⟨[{ kind := .cue (.snippet none "gull" true) }]⟩ },
      { id := "stay"
        block := ⟨[{ kind := .cue (.snippet none "gull" true) }, { delay := 5, kind := .cue (.comment "waves") }]⟩ },
      { id := "gull", block := ⟨[{ delay := 1, kind := .cue (.speak "gull" (some "kree") 2 []) }]⟩ }] }]

/-- Three frames of a second. -/
def Limits.brief : Limits := { frameRate := 1, maxSeconds := 3, fastForward := false, choices := [] }

/-- While the main lane waits for its time, the run is not completed. -/
theorem completed_iff_ends_pier :
    ∃ c r k ref a fin u, Document.pier.load = .ok c ∧ 1 < Limits.brief.maxFrames ∧
      (Run.start (Session.playing c .zeros {} ⟨1⟩) .brief).play .brief 1 = some r ∧ r.session.running ∧
      r.session.Due (.op (.update Limits.brief.step)) (r.session.aged Limits.brief.step) (.side 1) Limits.brief.step ∧
      (r.session.aged Limits.brief.step).Carries (.side 1) Limits.brief.step k ref a ∧
      (r.session.aged Limits.brief.step).refuses a ∧ (Session.playing c .zeros {} ⟨1⟩).run .brief = some fin ∧
      fin.session.running = false ∧ fin.isCompleted = false ∧
      (r.session.numbers.map .side).foldlM (fun s id => s.pass id Limits.brief.step)
        (r.session.aged Limits.brief.step) = some u ∧ ¬u.Ends := by
  have hlong : 1 < Limits.brief.maxFrames := by decide +kernel
  obtain ⟨c, r, k, ref, a, fin, hc, hr, hrunning, hdue, hcarries, hrefuses, hfin, hcompleted⟩ :=
    Run.exists_refusal .pier ⟨1⟩ .brief false ⟨_, rfl, by decide +kernel⟩
  obtain ⟨-, hrun⟩ := Run.completed_iff_ends hr hlong hrunning .frame hdue hcarries hrefuses
  obtain ⟨hstopped, -, u, hu, hiff⟩ := hrun fin hfin
  have hgoes : ¬u.Ends := fun hends => by
    rw [hiff.mpr hends] at hcompleted
    cases hcompleted
  exact ⟨c, r, k, ref, a, fin, u, hc, hlong, hr, hrunning, hdue, hcarries, hrefuses, hfin, hstopped, hcompleted, hu,
    hgoes⟩

/-- With the main lane at its end, the run is completed though the session has stopped at a line of nobody. -/
theorem completed_refused_pier :
    ∃ c r k ref a fin, 1 < Limits.brief.maxFrames ∧ Document.pier.load = .ok c ∧
      (Run.start (Session.playing c .zeros {} ⟨0⟩) .brief).play .brief 1 = some r ∧ r.session.running ∧
      r.session.Due (.op (.update Limits.brief.step)) (r.session.aged Limits.brief.step) (.side 1) Limits.brief.step ∧
      (r.session.aged Limits.brief.step).Carries (.side 1) Limits.brief.step k ref a ∧
      (r.session.aged Limits.brief.step).refuses a ∧ (Session.playing c .zeros {} ⟨0⟩).run .brief = some fin ∧
      fin.isCompleted = true := by
  have hlong : 1 < Limits.brief.maxFrames := by decide +kernel
  obtain ⟨c, r, k, ref, a, fin, hall⟩ := Run.exists_refusal .pier ⟨0⟩ .brief true ⟨_, rfl, by decide +kernel⟩
  exact ⟨c, r, k, ref, a, fin, hlong, hall⟩

end Dialogue
