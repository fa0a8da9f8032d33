import Chip8.Fault
import Chip8.Keypad.Basic
import Chip8.Platform

/-!
# The hexadecimal keypad

Sixteen keys `0` to `F`. It remembers which are held and the first press since presses were last
polled or cleared; releasing a key does not take its press back.
-/

namespace Chip8

structure HexPad where
  held : Vector Bool keyCount
  pending : Option UInt8
  deriving DecidableEq

namespace HexPad

def idle : HexPad := ⟨Vector.replicate _ false, none⟩

instance : Inhabited HexPad := ⟨idle⟩

def press (p : HexPad) (k : UInt8) : Except Fault HexPad :=
  if h : k.toNat < keyCount then .ok ⟨p.held.set k.toNat true h, p.pending <|> some k⟩
  else .error (.noSuchKey k)

def release (p : HexPad) (k : UInt8) : Except Fault HexPad :=
  if h : k.toNat < keyCount then .ok { p with held := p.held.set k.toNat false h }
  else .error (.noSuchKey k)

/-- No key above `F` is ever down. -/
def isHeld (p : HexPad) (k : UInt8) : Bool := p.held[k.toNat]?.getD false

def takePress (p : HexPad) : Option UInt8 × HexPad := (p.pending, { p with pending := none })

def forgetPress (p : HexPad) : HexPad := { p with pending := none }

instance : Keypad HexPad where
  isDown p k := (p.isHeld k, p)
  nextPress := takePress
  forgetPresses := forgetPress

theorem press_eq_error_iff {p : HexPad} {k : UInt8} {e : Fault} :
    p.press k = .error e ↔ keyCount ≤ k.toNat ∧ e = .noSuchKey k := by
  unfold press
  split
  · rename_i h
    exact ⟨fun e => (nomatch e), fun e => absurd h (Nat.not_lt.mpr e.1)⟩
  · rename_i h
    exact ⟨fun e => ⟨Nat.le_of_not_lt h, (Except.error.inj e).symm⟩, fun e => e.2 ▸ rfl⟩

/-- The first press stays the one to deliver. -/
theorem pending_press {p q : HexPad} {k : UInt8} (h : p.press k = .ok q) :
    q.pending = (p.pending <|> some k) := by
  unfold press at h
  split at h
  · cases h
    rfl
  · cases h

theorem pending_release {p q : HexPad} {k : UInt8} (h : p.release k = .ok q) :
    q.pending = p.pending := by
  unfold release at h
  split at h
  · cases h
    rfl
  · cases h

theorem isHeld_press {p q : HexPad} {k : UInt8} (h : p.press k = .ok q) (j : UInt8) :
    q.isHeld j = (j == k || p.isHeld j) := by
  unfold press at h
  split at h
  · rename_i hk
    cases h
    by_cases hj : j = k
    · subst hj
      simp [isHeld, hk]
    · have hne : k.toNat ≠ j.toNat := fun e => hj (UInt8.toNat_inj.mp e.symm)
      simp [isHeld, hne, hj]
  · cases h

theorem isHeld_release {p q : HexPad} {k : UInt8} (h : p.release k = .ok q) (j : UInt8) :
    q.isHeld j = (j != k && p.isHeld j) := by
  unfold release at h
  split at h
  · rename_i hk
    cases h
    by_cases hj : j = k
    · subst hj
      simp [isHeld, hk]
    · have hne : k.toNat ≠ j.toNat := fun e => hj (UInt8.toNat_inj.mp e.symm)
      simp [isHeld, hne, hj]
  · cases h

end HexPad

end Chip8
