/-! Numbers drawn at random. Where they come from is left open: a source may hold any numbers, and a draw is a function of
    the source. -/

namespace Dialogue

/-- A source of random numbers: those that are going to be drawn, one after the other. -/
structure Chance where
  numbers : Nat → Nat

namespace Chance

/-- The source that gives nothing but zeros. -/
def zeros : Chance := ⟨fun _ => 0⟩

/-- The source that gives one more number first. -/
def cons (n : Nat) (c : Chance) : Chance := ⟨fun | 0 => n | i + 1 => c.numbers i⟩

/-- The source after one draw. -/
def next (c : Chance) : Chance := ⟨fun i => c.numbers (i + 1)⟩

/-- A number up to the bound, which is included. -/
def upTo (c : Chance) (bound : Nat) : Nat × Chance := (c.numbers 0 % (bound + 1), c.next)

theorem upTo_le (c : Chance) (bound : Nat) : (c.upTo bound).1 ≤ bound :=
  Nat.le_of_lt_succ (Nat.mod_lt _ (Nat.succ_pos bound))

/-- Every number up to the bound may be drawn, whatever is drawn later. -/
theorem upTo_cons {n bound : Nat} (h : n ≤ bound) (c : Chance) : (cons n c).upTo bound = (n, c) := by
  rw [upTo, cons, Nat.mod_eq_of_lt (Nat.lt_succ_of_le h)]
  rfl

/-- A number between zero and the limit, both included. -/
def towards (c : Chance) (limit : Int32) : Int32 × Chance :=
  let (n, c) := c.upTo limit.toInt.natAbs
  (Int32.ofInt (if limit < 0 then -n else n), c)

end Chance
end Dialogue
