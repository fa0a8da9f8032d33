import Chip8.Instruction.Decode
import Chip8.Instruction.Mnemonic
import Chip8.Platform

/-!
# Operands that decoding yields

A decoded instruction names registers below sixteen, addresses below 4096 and at most fifteen
sprite rows, whatever the opcode.
-/

namespace Chip8

namespace Opcode

variable (w : Opcode)

theorem toNat_x_lt : w.x.toNat < registerCount := by
  rw [x, toNat_nibble]
  exact Nat.mod_lt _ (by decide)

theorem toNat_y_lt : w.y.toNat < registerCount := by
  rw [y, toNat_nibble]
  exact Nat.mod_lt _ (by decide)

theorem toNat_n_lt : w.n.toNat < 16 := by
  rw [n, toNat_nibble]
  exact Nat.mod_lt _ (by decide)

theorem toNat_addr_lt : w.addr.toNat < memorySize := by
  rw [toNat_addr]
  exact Nat.mod_lt _ (by decide)

end Opcode

namespace Instruction

def Operand.Fits : Operand → Prop
  | .register x => x.toNat < registerCount
  | .address a => a.toNat < memorySize
  | .rows n => n.toNat < 16
  | _ => True

def WellFormed (i : Instruction) : Prop := ∀ o ∈ i.operands, o.Fits

variable {w : Opcode} {i : Instruction}

theorem wellFormed_of_decodeArithmetic? {n : UInt8} (h : decodeArithmetic? w.x w.y n = some i) :
    i.WellFormed := by
  unfold decodeArithmetic? at h
  split at h <;> cases h <;>
    simp [WellFormed, operands, Operand.Fits, w.toNat_x_lt, w.toNat_y_lt]

theorem wellFormed_of_decodeMisc? {kk : UInt8} (h : decodeMisc? w.x kk = some i) :
    i.WellFormed := by
  unfold decodeMisc? at h
  split at h <;> cases h <;> simp [WellFormed, operands, Operand.Fits, w.toNat_x_lt]

theorem wellFormed_of_decode? (h : decode? w = some i) : i.WellFormed := by
  unfold decode? ofFields? at h
  split at h
  case h_9 => exact wellFormed_of_decodeArithmetic? h
  case h_16 => exact wellFormed_of_decodeMisc? h
  all_goals
    (repeat' split at h) <;> cases h <;>
      simp [WellFormed, operands, Operand.Fits, w.toNat_x_lt, w.toNat_y_lt, w.toNat_n_lt,
        w.toNat_addr_lt]

end Instruction

end Chip8
