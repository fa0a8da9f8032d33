/-!
# Sets of characters

A set of characters as ranges of code points, both ends included.
-/

namespace Chip8

structure CharSet where
  ranges : List (Nat × Nat)

namespace CharSet

def contains (s : CharSet) (c : Char) : Bool :=
  s.ranges.any fun (lo, hi) => Nat.ble lo c.toNat && Nat.ble c.toNat hi

theorem contains_iff (s : CharSet) (c : Char) :
    s.contains c = true ↔ ∃ r ∈ s.ranges, r.1 ≤ c.toNat ∧ c.toNat ≤ r.2 := by
  simp [contains]

end CharSet

end Chip8
