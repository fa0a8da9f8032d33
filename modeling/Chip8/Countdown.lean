/-!
# Countdowns

A byte that counts down to zero and stays there: the delay and the sound timer.
-/

namespace Chip8

structure Countdown where
  value : UInt8
  deriving DecidableEq, Repr, Inhabited

namespace Countdown

def stopped : Countdown := ⟨0⟩

def tick (t : Countdown) : Countdown := if t.value = 0 then t else ⟨t.value - 1⟩

def isActive (t : Countdown) : Bool := t.value > 0

theorem toNat_tick (t : Countdown) : t.tick.value.toNat = t.value.toNat - 1 := by
  unfold tick
  split
  · simp_all
  · rename_i h
    have : t.value.toNat ≠ 0 := fun e => h (UInt8.toNat_inj.mp e)
    have := t.value.toNat_lt
    rw [UInt8.toNat_sub_of_le _ _ (by rw [UInt8.le_iff_toNat_le]; simpa using by omega)]
    rfl

end Countdown

end Chip8
