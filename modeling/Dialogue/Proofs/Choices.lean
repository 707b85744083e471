import Dialogue.Proofs.Origin

/-! What becomes of what the player is asked. There is one place for it, whichever lane asks. A choice takes that place,
    or clears it when it has nothing to offer, and everything else leaves it as it is or clears it together with the list
    that plays meanwhile (`Move.asking`). -/

namespace Dialogue

/-- Whether a choice is carried out. -/
def Event.isChoice : Event → Bool
  | .dispatched _ _ label => label == "player_choice"
  | _ => false

theorem Action.label_of_plain {a : Action ListId} (h : a.isJump = false) :
    a.label ≠ "player_choice" ∧ a.label ≠ "stop_conversation" ∧ a.label ≠ "stop_topic" := by
  unfold Action.isJump at h
  unfold Action.label
  cases hkind : a.kind with
  | cue c => cases c <;> simp_all [Kind.label, Cue.label]
  | choice => simp [hkind] at h
  | ifElse | wait => simp [Kind.label]

theorem Action.label_of_choice {a : Action ListId} {answers : List (Answer ListId)} {meanwhile : ListId}
    {name : Option String} (h : a.kind = .choice answers meanwhile name) : a.label = "player_choice" := by
  rw [Action.label, h]
  rfl

namespace Session
variable {s t u : Session} {id : LaneId} {i : Nat} {ref : ActionRef} {k : Choice} {cursors : List Cursor}

/-- A list that an action has entered is played over and over, with `i` cursors below its own. -/
def Loops (s : Session) (id : LaneId) (i : Nat) (ref : ActionRef) : Prop :=
  ∃ cursors cur, s.cursors? id = some cursors ∧ cursors[i]? = some cur ∧ cur.looping = true ∧ cur.parent = some ref

instance : Decidable (s.Loops id i ref) :=
  decidable_of_iff
    ((s.cursors? id).any fun cursors => cursors[i]?.any fun cur => cur.looping && cur.parent == some ref) (by
    simp [Loops, Option.any_eq_true])

/-- The list that plays while a choice waits is there. -/
abbrev Waits (s : Session) (k : Choice) : Prop := s.Loops k.lane (k.depth - 1) k.action

/-- What becomes of the choice in a move. -/
inductive Asking (s t : Session) : Prop where
  | asked {k cursors a cur} (h : Asks k cursors a cur s t)
  | skipped {id cursors ref a cur} (h : Skips id cursors ref a cur s t)
  | silent {log} (hlog : t.events.toList = s.events.toList ++ log) (hquiet : ∀ e ∈ log, e.isChoice = false)
      (hchoice : t.choice = s.choice ∨ t.choice = none ∧ ∀ k, s.choice = some k → ¬t.Waits k)

theorem Turn.asking (h : Turn id s t) : Asking s t := by
  cases h with
  | asked _ h => exact .asked h
  | skipped h => exact .skipped h
  | calm h hq | rooted _ _ h hq => exact .silent h.log nofun (.inl hq.choice)
  | refused h hchoice | held _ _ _ _ h hchoice => exact .silent h.log nofun (.inl hchoice)
  | closed _ _ h hq | actorRemoved h hq | added _ _ h hq | removed _ _ h hq =>
    exact .silent h.log (by simp [Event.isChoice]) (.inl hq.choice)
  | ended _ h hchoice => exact .silent h.log (by simp [Event.isChoice]) (.inl hchoice)
  | noted _ hplain h hq => exact .silent h.log (by simp [Event.isChoice, Action.label_of_plain hplain]) (.inl hq.choice)
  | moved _ _ h hq => exact .silent h.log (fun _ he => mem_leaving he ▸ rfl) (.inl hq.choice)
  | entered _ hplain _ _ _ h hq =>
    exact .silent h.log (by simp [Event.isChoice, Action.label_of_plain hplain]) (.inl hq.choice)
  | @stopped _ _ a _ hkind h hchoice =>
    have hlabel : a.label = "stop_conversation" := by rw [Action.label, hkind]; rfl
    exact .silent h.log (by simp [Event.isChoice, hlabel]) (.inl hchoice)
  | @topicStopped _ _ a _ hkind h hq =>
    have hlabel : a.label = "stop_topic" := by rw [Action.label, hkind]; rfl
    refine .silent h.log (fun e he => ?_) (.inl hq.choice)
    rcases List.mem_cons.mp he with rfl | he
    · simp [Event.isChoice, hlabel]
    · exact mem_leaving he ▸ rfl

/-- Above the list of an answered choice nothing loops, and that list does not either. -/
theorem Answers.straight {d j : Nat} {o : Option Cursor} {cursors' : List Cursor} {cur : Cursor} {log : List Event}
    (h : Answers id ((released cursors d).modify d Cursor.forwardEnd) o log s t) (hlane : t.cursors? id = some cursors')
    (hj : d ≤ j) (hcur : cursors'[j]? = some cur) : cur.looping = false := by
  obtain rfl := Option.some.inj (h.effect.lane.symm.trans hlane)
  by_cases hlt : j < ((released cursors d).modify d Cursor.forwardEnd).length
  · have hd : j = d := by
      simp only [released, List.length_modify, List.length_take] at hlt
      omega
    subst hd
    rw [List.getElem?_append_left hlt, List.getElem?_modify, released, List.getElem?_modify] at hcur
    obtain ⟨old, -, rfl⟩ : ∃ old, (cursors.take (j + 1))[j]? = some old ∧ old.release.forwardEnd = cur := by
      simpa using hcur
    rfl
  · rw [List.getElem?_append_right (Nat.le_of_not_lt hlt)] at hcur
    have hmem : cur ∈ o.toList := List.mem_of_getElem? hcur
    exact (h.plain cur (Option.mem_toList.mp hmem)).1

theorem Move.asking (h : Move s t) : Asking s t := by
  cases h with
  | turn h => exact h.asking
  | set h hchoice => exact .silent h.log nofun (.inl hchoice)
  | advanced _ h hchoice => exact .silent h.log (fun _ he => mem_leaving he ▸ rfl) (.inl hchoice)
  | cancelled _ _ h hchoice => exact .silent h.log (by simp [Event.isChoice]) (.inl hchoice)
  | @dismissed k hk hgone h hchoice =>
    refine .silent h.log nofun (.inr ⟨hchoice, fun k' hk' => ?_⟩)
    obtain rfl : k = k' := Option.some.inj (hk.symm.trans hk')
    rintro ⟨cursors', cur, hlane, hcur, -, -⟩
    have hsame : t.cursors? k.lane = s.cursors? k.lane := by
      by_cases hid : k.lane = .main
      · rw [hid, h.lane]
      · exact h.others _ hid
    rw [hsame] at hlane
    have hshort := hgone cursors' hlane
    rw [List.getElem?_eq_none hshort] at hcur
    cases hcur
  | @answered k _ _ _ hk _ _ h hchoice =>
    refine .silent h.effect.log (by simp [Event.isChoice]) (.inr ⟨hchoice, fun k' hk' => ?_⟩)
    obtain rfl : k = k' := Option.some.inj (hk.symm.trans hk')
    rintro ⟨cursors', cur, hlane, hcur, hloop, -⟩
    rw [h.straight hlane (Nat.le_refl _) hcur] at hloop
    cases hloop
  | rewound _ _ hfresh hsides hlog hchoice =>
    refine .silent hlog (by simp [Event.isChoice]) (.inr ⟨hchoice, fun k _ => ?_⟩)
    rintro ⟨cursors', cur, hlane, hcur, hloop, -⟩
    rw [looping_of_fresh hfresh hsides hlane hcur] at hloop
    cases hloop

end Session

end Dialogue
