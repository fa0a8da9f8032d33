import Chip8.Proofs.Table

/-!
# The words of an instruction

The word that stands for an instruction, as a number. Decoding keeps every nibble of a word in the
instruction but the `y` of a shift, so that words with the same instruction are equal unless both
are shifts of the same register in the same direction.
-/

namespace Chip8

namespace Opcode

theorem toNat_eq_kk (w : Opcode) :
    w.toNat = 0x1000 * w.family.toNat + 0x100 * w.x.toNat + w.kk.toNat := by
  have hlt := w.toNat_lt
  rw [family, x, toNat_nibble, toNat_nibble, toNat_kk]
  omega

theorem toNat_eq_nibbles (w : Opcode) :
    w.toNat = 0x1000 * w.family.toNat + 0x100 * w.x.toNat + 0x10 * w.y.toNat + w.n.toNat := by
  have hlt := w.toNat_lt
  rw [family, x, y, n, toNat_nibble, toNat_nibble, toNat_nibble, toNat_nibble]
  omega

/-- Both are `8xy6` or both are `8xyE`, with the same `x`. -/
def SameShift (w v : Opcode) : Prop :=
  w.family = 0x8 ∧ v.family = 0x8 ∧ w.x = v.x ∧
    (w.n = 0x6 ∧ v.n = 0x6 ∨ w.n = 0xE ∧ v.n = 0xE)

end Opcode

namespace Instruction

variable {w v : Opcode} {i j : Instruction}

/-- The number of the word; `y` stands in the nibble that a shift ignores. -/
def code (y : Nat) : Instruction → Nat
  | clear => 0x00E0
  | ret => 0x00EE
  | sys a => 0x0000 + a.toNat
  | jump a => 0x1000 + a.toNat
  | call a => 0x2000 + a.toNat
  | skipEqualByte x kk => 0x3000 + 0x100 * x.toNat + kk.toNat
  | skipUnequalByte x kk => 0x4000 + 0x100 * x.toNat + kk.toNat
  | skipEqual x y => 0x5000 + 0x100 * x.toNat + 0x10 * y.toNat + 0x0
  | loadByte x kk => 0x6000 + 0x100 * x.toNat + kk.toNat
  | addByte x kk => 0x7000 + 0x100 * x.toNat + kk.toNat
  | move x y => 0x8000 + 0x100 * x.toNat + 0x10 * y.toNat + 0x0
  | or x y => 0x8000 + 0x100 * x.toNat + 0x10 * y.toNat + 0x1
  | and x y => 0x8000 + 0x100 * x.toNat + 0x10 * y.toNat + 0x2
  | xor x y => 0x8000 + 0x100 * x.toNat + 0x10 * y.toNat + 0x3
  | add x y => 0x8000 + 0x100 * x.toNat + 0x10 * y.toNat + 0x4
  | sub x y => 0x8000 + 0x100 * x.toNat + 0x10 * y.toNat + 0x5
  | shiftRight x => 0x8000 + 0x100 * x.toNat + 0x10 * y + 0x6
  | subFrom x y => 0x8000 + 0x100 * x.toNat + 0x10 * y.toNat + 0x7
  | shiftLeft x => 0x8000 + 0x100 * x.toNat + 0x10 * y + 0xE
  | skipUnequal x y => 0x9000 + 0x100 * x.toNat + 0x10 * y.toNat + 0x0
  | loadIndex a => 0xA000 + a.toNat
  | jumpOffset a => 0xB000 + a.toNat
  | random x kk => 0xC000 + 0x100 * x.toNat + kk.toNat
  | draw x y n => 0xD000 + 0x100 * x.toNat + 0x10 * y.toNat + n.toNat
  | skipKeyDown x => 0xE000 + 0x100 * x.toNat + 0x9E
  | skipKeyUp x => 0xE000 + 0x100 * x.toNat + 0xA1
  | loadDelay x => 0xF000 + 0x100 * x.toNat + 0x07
  | awaitKey x => 0xF000 + 0x100 * x.toNat + 0x0A
  | setDelay x => 0xF000 + 0x100 * x.toNat + 0x15
  | setSound x => 0xF000 + 0x100 * x.toNat + 0x18
  | addIndex x => 0xF000 + 0x100 * x.toNat + 0x1E
  | loadGlyph x => 0xF000 + 0x100 * x.toNat + 0x29
  | storeDecimal x => 0xF000 + 0x100 * x.toNat + 0x33
  | storeRegisters x => 0xF000 + 0x100 * x.toNat + 0x55
  | loadRegisters x => 0xF000 + 0x100 * x.toNat + 0x65

def isShift : Instruction → Bool
  | shiftRight _ | shiftLeft _ => true
  | _ => false

theorem toNat_eq_code (h : w.Row i) : w.toNat = i.code w.y.toNat := by
  cases h with
  | clear h | ret h =>
    rw [h]
    rfl
  | sys hf | jump hf | call hf | loadIndex hf | jumpOffset hf =>
    rw [w.toNat_eq_addr, hf]
    rfl
  | skipEqualByte hf | skipUnequalByte hf | loadByte hf | addByte hf | random hf =>
    rw [w.toNat_eq_kk, hf]
    rfl
  | draw hf =>
    rw [w.toNat_eq_nibbles, hf]
    rfl
  | skipKeyDown hf hk | skipKeyUp hf hk | loadDelay hf hk | awaitKey hf hk | setDelay hf hk
  | setSound hf hk | addIndex hf hk | loadGlyph hf hk | storeDecimal hf hk | storeRegisters hf hk
  | loadRegisters hf hk =>
    rw [w.toNat_eq_kk, hf, hk]
    rfl
  | skipEqual hf hn | move hf hn | or hf hn | and hf hn | xor hf hn | add hf hn | sub hf hn
  | shiftRight hf hn | subFrom hf hn | shiftLeft hf hn | skipUnequal hf hn =>
    rw [w.toNat_eq_nibbles, hf, hn]
    rfl

theorem code_of_not_isShift (h : i.isShift = false) (y z : Nat) : i.code y = i.code z := by
  cases i with
  | shiftRight | shiftLeft => cases h
  | _ => rfl

theorem eq_of_row (h : i.isShift = false) (hw : w.Row i) (hv : v.Row i) : w = v := by
  apply UInt16.toNat_inj.mp
  rw [toNat_eq_code hw, toNat_eq_code hv, code_of_not_isShift h]

theorem row_shiftRight {x : UInt8} (h : w.Row (.shiftRight x)) :
    w.family = 0x8 ∧ w.n = 0x6 ∧ w.x = x := by
  cases h with
  | shiftRight hf hn => exact ⟨hf, hn, rfl⟩

theorem row_shiftLeft {x : UInt8} (h : w.Row (.shiftLeft x)) :
    w.family = 0x8 ∧ w.n = 0xE ∧ w.x = x := by
  cases h with
  | shiftLeft hf hn => exact ⟨hf, hn, rfl⟩

theorem sameShift_of_row (h : i.isShift = true) (hw : w.Row i) (hv : v.Row i) :
    w.SameShift v := by
  cases i with
  | shiftRight x =>
    obtain ⟨hwf, hwn, hwx⟩ := row_shiftRight hw
    obtain ⟨hvf, hvn, hvx⟩ := row_shiftRight hv
    exact ⟨hwf, hvf, hwx.trans hvx.symm, .inl ⟨hwn, hvn⟩⟩
  | shiftLeft x =>
    obtain ⟨hwf, hwn, hwx⟩ := row_shiftLeft hw
    obtain ⟨hvf, hvn, hvx⟩ := row_shiftLeft hv
    exact ⟨hwf, hvf, hwx.trans hvx.symm, .inr ⟨hwn, hvn⟩⟩
  | _ => cases h

/-- Words with the same instruction differ in the `y` of a shift at most. -/
theorem eq_iff_of_row (hi : w.Row i) (hj : v.Row j) : i = j ↔ w = v ∨ w.SameShift v := by
  constructor
  · rintro rfl
    cases h : i.isShift with
    | false => exact .inl (eq_of_row h hi hj)
    | true => exact .inr (sameShift_of_row h hi hj)
  · rintro (rfl | ⟨hwf, hvf, hx, ⟨hwn, hvn⟩ | ⟨hwn, hvn⟩⟩)
    · exact row_unique hi hj
    · rw [row_unique hi (.shiftRight hwf hwn), row_unique hj (.shiftRight hvf hvn), hx]
    · rw [row_unique hi (.shiftLeft hwf hwn), row_unique hj (.shiftLeft hvf hvn), hx]

end Instruction

end Chip8
