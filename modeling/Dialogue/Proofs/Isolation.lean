import Dialogue.Proofs.Arising

/-! Lanes are isolated. A pass concerns its own lane and those that are added meanwhile, and no other one
    (`pass_isolated`). -/

namespace Dialogue
namespace Session
variable {c : Conversation} {hosted : List Nat} {s t : Session} {id : LaneId} {e : Seconds}

/-- After a pass every other lane that was there is there and the same, and a lane that was not there has a number that
    has never been given out before. -/
theorem pass_isolated (hs : Arises c hosted s) (h : s.pass id e = some t) :
    (∀ other l, other ≠ id → s.lane? other = some l → t.lane? other = some l) ∧
      (∀ other l, other ≠ id → t.lane? other = some l →
        s.lane? other = some l ∨ ∃ n, other = .side n ∧ s.nextSide ≤ n ∧ n < t.nextSide) ∧
      ∀ n l, s.lane? (.side n) = some l → n < s.nextSide := by
  have hnum := hs.regular.numbered
  obtain ⟨visits, hchain⟩ := Chain.of_passWithin h
  obtain ⟨-, acting, hconfined, -⟩ := hchain.confined hnum
  refine ⟨fun other l hother hl => ?_, fun other l hother hl => ?_, fun n l hl => hnum.knows hl⟩
  · rw [hconfined.others other hother (hnum.knows hl)]
    exact hl
  · by_cases hknows : s.Knows other
    · rw [hconfined.others other hother hknows] at hl
      exact .inl hl
    · cases other with
      | main => exact absurd trivial hknows
      | side n => exact .inr ⟨n, rfl, Nat.le_of_not_lt hknows, (hconfined.numbered hnum).knows hl⟩

end Session

/-- The main lane and a side lane, which adds another one. -/
def Document.company : Document where
  profiles := []
  values := .empty
  gameCommands := .empty
  files := [{
    id := "tale"
    topics := [
      { id := "walk"
        block := ⟨[{ kind := .cue (.snippet none "guide" true) }, { kind := .cue (.comment "off"), delay := 5 }]⟩ },
      { id := "guide"
        block := ⟨[
          { kind := .cue (.comment "this way") }, { kind := .cue (.snippet none "dog" true) },
          { kind := .cue (.comment "here") }]⟩ },
      { id := "dog", block := ⟨[{ kind := .cue (.comment "bark") }, { kind := .cue (.comment "bark") }]⟩ }] }]

theorem pass_isolated_company :
    ∃ c s t l, Document.company.load = .ok c ∧ Session.Arises c [] s ∧ s.pass (.side 1) 1 = some t ∧
      s.lane? .main = some l ∧ (t.lane? (.side 2)).isSome ∧
      (∀ other l, other ≠ .side 1 → s.lane? other = some l → t.lane? other = some l) ∧
      (∀ other l, other ≠ .side 1 → t.lane? other = some l →
        s.lane? other = some l ∨ ∃ n, other = .side n ∧ s.nextSide ≤ n ∧ n < t.nextSide) ∧
      ∀ n l, s.lane? (.side n) = some l → n < s.nextSide := by
  have hplayed : ∃ c, Document.company.load = .ok c ∧
      ((Session.start c (.scripted .zeros) {}).steps [.setTopic (some ⟨0⟩), .setRunning true, .update 1]).any fun s =>
        (s.pass (.side 1) 1).any fun t => (t.lane? (.side 2)).isSome :=
    ⟨_, rfl, by decide +kernel⟩
  obtain ⟨c, s, hc, harises, hpass⟩ := Session.exists_arises (by simp) hplayed
  obtain ⟨t, ht, hadded⟩ := (Option.any_eq_true _ _).mp hpass
  exact ⟨c, s, t, s.main, hc, harises, ht, rfl, hadded, Session.pass_isolated harises ht⟩

end Dialogue
