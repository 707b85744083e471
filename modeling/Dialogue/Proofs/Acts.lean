import Dialogue.Proofs.Chains

/-! Passes action by action. Whatever a pass comes to, with the passes of the lanes that are started meanwhile, is made of
    actions that are carried out and of steps that carry out nothing. So a relation that composes and holds of these holds
    of passes (`ActByAct.pass`), and of the passes of a frame one after the other (`ActByAct.passes`). -/

namespace Dialogue
namespace Session
variable {s t u : Session} {id : LaneId} {e : Seconds} {l : Lane} {ref : ActionRef} {a : Action ListId}

/-- No action has been carried out, as the log tells, and what actions act on is the same. -/
structure Passive (s t : Session) : Prop extends Alike s t where
  lists : SameLists s t
  log : ∃ log, t.events.toList = s.events.toList ++ log ∧ log.filterMap Event.actingLane? = []

theorem Passive.refl (s : Session) : Passive s s :=
  ⟨⟨rfl, rfl, rfl, rfl⟩, .refl s, [], (List.append_nil _).symm, rfl⟩

theorem Passive.trans (h : Passive s t) (h' : Passive t u) : Passive s u where
  toAlike := h.toAlike.trans h'.toAlike
  lists := h.lists.trans h'.lists
  log := by
    obtain ⟨log, hlog, hnone⟩ := h.log
    obtain ⟨log', hlog', hnone'⟩ := h'.log
    exact ⟨log ++ log', by rw [hlog', hlog, List.append_assoc], by rw [List.filterMap_append, hnone, hnone']; rfl⟩

theorem Alters.passive (h : Alters id s t) (halike : Alike s t) : Passive s t := by
  obtain ⟨log, hlog, hnone, -⟩ := h.log
  exact ⟨halike, h.lists, log, hlog, hnone⟩

theorem passive_changeLane {f : Lane → Lane} (id : LaneId)
    (hf : ∀ l, s.lane? id = some l → s.LaneChange l (f l)) : Passive s (s.changeLane id f) :=
  (Touches.change hf).toAlters.passive .changeLane

theorem passive_advance (id : LaneId) : Passive s (s.advance id) :=
  (Touches.advance : Touches id s _).toAlters.passive .advance

theorem passive_opened (id : LaneId) : Passive s (s.opened id) := (opened_touches s id).toAlters.passive .opened

theorem passive_record {event : Event} (h : event.actingLane? = none) : Passive s (s.record event) :=
  ⟨⟨rfl, rfl, rfl, rfl⟩, ⟨rfl, rfl, rfl⟩, [event], by simp [record], by simp [h]⟩

theorem passive_addLane (l : Lane) : Passive s (s.addLane l) :=
  ⟨⟨rfl, rfl, rfl, rfl⟩, ⟨rfl, rfl, rfl⟩, [.laneAdded s.nextSide], by simp [addLane, record], rfl⟩

theorem passive_removeLane (n : Nat) : Passive s (s.removeLane n) :=
  ⟨⟨rfl, rfl, rfl, rfl⟩, ⟨rfl, rfl, rfl⟩, [.laneRemoved n], by simp [removeLane, record], rfl⟩

theorem Idles.passive (h : s.Idles id e t) : Passive s t := by
  have hopened : Passive s (s.opened id) := passive_opened id
  cases h with
  | still => exact hopened
  | timed => exact hopened.trans (passive_changeLane id fun k _ => .timed k _)
  | leaves => exact hopened.trans (passive_advance id)
  | finishes =>
    refine hopened.trans ?_
    cases id with
    | side n => exact passive_removeLane n
    | main =>
      have hstopped : Passive (s.opened .main) { s.opened .main with running := false } :=
        ⟨⟨rfl, rfl, rfl, rfl⟩, ⟨rfl, rfl, rfl⟩, [], (List.append_nil _).symm, rfl⟩
      unfold finish
      simp only
      split
      · exact hstopped.trans (passive_record rfl)
      · exact .refl _

/-- Before an action is noted, nothing is carried out. -/
theorem Carries.passive (h : s.Carries id e l ref a) :
    ∃ r, Passive s r ∧ s.carried id e l ref a = r.note id ref a (some { topic := l.topic?, action := ref }) ∧
      r.action? ref = some a ∧ r.sideTopic? a = s.sideTopic? a := by
  have hopened : Passive s (s.opened id) := passive_opened id
  have htimed := hopened.trans (passive_changeLane id fun k _ => .timed k (l.time + e))
  exact ⟨_, htimed, rfl, by rw [htimed.lists.action?, ← hopened.lists.action?, h.action], by rw [htimed.sideTopic?]⟩

/-- A relation between sessions composes, and holds of all that passes are made of. -/
structure ActByAct (P : Session → Session → Prop) : Prop where
  trans {s t u : Session} (h : P s t) (h' : P t u) : P s u
  passive {s t : Session} (h : Passive s t) : P s t
  /-- An action that starts no lane is noted and carried out. -/
  acts {s t : Session} {id : LaneId} {ref : ActionRef} {a : Action ListId} {last : Option LastPlayed}
    {start : Session → Lane → Option Session} (ha : s.action? ref = some a) (hplain : s.sideTopic? a = none)
    (h : (s.note id ref a last).execute start id ref a = some t) (halters : Alters id (s.note id ref a last) t) : P s t
  /-- An action that starts a lane is noted. -/
  starts {s : Session} {id : LaneId} {ref : ActionRef} {a : Action ListId} {last : Option LastPlayed} {topic : TopicId}
    (ha : s.action? ref = some a) (htopic : s.sideTopic? a = some topic) : P s (s.note id ref a last)

namespace ActByAct
variable {P : Session → Session → Prop} {topic : TopicId} {visits : List (LaneId × Seconds)} {ids : List LaneId}

theorem refl (hP : ActByAct P) (s : Session) : P s s := hP.passive (.refl s)

theorem started (hP : ActByAct P) (h : s.Carries id e l ref a) (htopic : s.sideTopic? a = some topic) :
    P s (s.started id e l ref a topic) := by
  obtain ⟨r, hpassive, hcarried, ha, hside⟩ := h.passive
  rw [Session.started, hcarried]
  exact hP.trans (hP.passive hpassive) (hP.trans (hP.starts ha (hside.trans htopic)) (hP.passive (passive_addLane _)))

theorem chain (hP : ActByAct P) (h : Chain s id e visits t) : P s t := by
  induction h with
  | @alone s t id e hquiet h =>
    cases pass_alone hquiet h with
    | @acts l ref a u hcarries hplain hrun hdone =>
      obtain ⟨r, hpassive, hcarried, ha, hside⟩ := hcarries.passive
      rw [hcarried] at hrun hdone
      have hprimed : Passive u (u.changeLane id Lane.prime) := passive_changeLane id fun k _ => .primed k
      have hacts := hP.acts ha (hside.trans hplain) (hrun fun _ _ => none) hdone.toAlters
      exact hP.trans (hP.passive hpassive) (hP.trans hacts (hP.passive hprimed))
    | idles hidles => exact hP.passive hidles.passive
  | @starts s u id e l ref a topic visits h htopic _ ih =>
    have hresumed := (passive_advance (s := u) id).trans (passive_changeLane id fun k _ => .primed k)
    exact hP.trans (hP.started h htopic) (hP.trans ih (hP.passive hresumed))

theorem pass (hP : ActByAct P) (h : s.pass id e = some t) : P s t := by
  obtain ⟨visits, hchain⟩ := Chain.of_passWithin h
  exact hP.chain hchain

theorem passes (hP : ActByAct P) (h : ids.foldlM (fun r id => r.pass id e) s = some t) : P s t :=
  foldlM_preserves (P := P s) (fun _ _ _ _ hr hu => hP.trans hr (hP.pass hu)) (hP.refl s) h

end ActByAct

end Session
end Dialogue
