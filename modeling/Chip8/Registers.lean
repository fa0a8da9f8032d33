import Chip8.Fault
import Chip8.Platform

/-!
# Registers

`V0` to `VF`. `VF` doubles as the flag.
-/

namespace Chip8

structure Registers where
  cells : Vector UInt8 registerCount
  deriving DecidableEq

namespace Registers

def zeros : Registers := ⟨Vector.replicate _ 0⟩

instance : Inhabited Registers := ⟨zeros⟩

def get (v : Registers) (x : UInt8) : Except Fault UInt8 :=
  match v.cells[x.toNat]? with
  | some b => .ok b
  | none => .error (.noSuchRegister x)

def set (v : Registers) (x b : UInt8) : Except Fault Registers :=
  if h : x.toNat < registerCount then .ok ⟨v.cells.set x.toNat b h⟩
  else .error (.noSuchRegister x)

def flag (v : Registers) : UInt8 := v.cells[flagRegister]

def setFlag (v : Registers) (on : Bool) : Registers :=
  ⟨v.cells.set flagRegister (if on then 1 else 0)⟩

/-- `V0` to `Vx`. -/
def through (v : Registers) (x : UInt8) : Except Fault (List UInt8) :=
  if x.toNat < registerCount then .ok (v.cells.toList.take (x.toNat + 1))
  else .error (.noSuchRegister x)

def toList (v : Registers) : List UInt8 := v.cells.toList

/-! ## Reading after a change -/

theorem get_of_lt (v : Registers) {x : UInt8} (h : x.toNat < registerCount) :
    v.get x = .ok v.cells[x.toNat] := by
  unfold get
  rw [Vector.getElem?_eq_getElem h]

theorem set_of_lt (v : Registers) {x : UInt8} (b : UInt8) (h : x.toNat < registerCount) :
    v.set x b = .ok ⟨v.cells.set x.toNat b h⟩ := by
  unfold set
  rw [dif_pos h]

theorem get_set {v w : Registers} {x b : UInt8} (h : v.set x b = .ok w) (y : UInt8) :
    w.get y = if y = x then .ok b else v.get y := by
  unfold set at h
  split at h
  · rename_i hx
    cases h
    by_cases hy : y.toNat < registerCount
    · rw [get_of_lt _ hy, get_of_lt _ hy]
      by_cases hyx : y = x
      · subst hyx
        simp
      · have : x.toNat ≠ y.toNat := fun e => hyx (UInt8.toNat_inj.mp e.symm)
        rw [if_neg hyx, Vector.getElem_set_ne _ _ this]
    · have hyx : y ≠ x := fun e => hy (e ▸ hx)
      rw [if_neg hyx]
      unfold get
      rw [Vector.getElem?_eq_none (Nat.le_of_not_lt hy),
        Vector.getElem?_eq_none (Nat.le_of_not_lt hy)]
  · cases h

end Registers

end Chip8
