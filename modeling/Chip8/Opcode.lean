/-!
# Opcodes

An opcode is a 16-bit word. Its four nibbles, from the high end, are the family and the operand
nibbles `x`, `y` and `n`; the low byte is `kk` and the low twelve bits are `addr`.
-/

namespace Chip8

abbrev Opcode := UInt16

namespace Opcode

/-- The nibble whose low bit weighs `weight`. -/
def nibble (w : Opcode) (weight : Nat) : UInt8 := UInt8.ofNat (w.toNat / weight % 16)

def family (w : Opcode) : UInt8 := w.nibble 0x1000
def x (w : Opcode) : UInt8 := w.nibble 0x100
def y (w : Opcode) : UInt8 := w.nibble 0x10
def n (w : Opcode) : UInt8 := w.nibble 0x1
def kk (w : Opcode) : UInt8 := UInt8.ofNat (w.toNat % 256)
def addr (w : Opcode) : UInt16 := UInt16.ofNat (w.toNat % 4096)

theorem toNat_nibble (w : Opcode) (weight : Nat) :
    (w.nibble weight).toNat = w.toNat / weight % 16 := by
  simp only [nibble, UInt8.toNat_ofNat']
  omega

theorem toNat_kk (w : Opcode) : w.kk.toNat = w.toNat % 256 := by
  simp only [kk, UInt8.toNat_ofNat']
  omega

theorem toNat_addr (w : Opcode) : w.addr.toNat = w.toNat % 4096 := by
  simp only [addr, UInt16.toNat_ofNat']
  omega

theorem toNat_eq_addr (w : Opcode) : w.toNat = 0x1000 * w.family.toNat + w.addr.toNat := by
  have hlt := w.toNat_lt
  rw [family, toNat_nibble, toNat_addr]
  omega

/-- A word is its family and its address. -/
theorem eq_of_addr {w v : Opcode} (hf : w.family = v.family) (ha : w.addr = v.addr) : w = v := by
  apply UInt16.toNat_inj.mp
  rw [w.toNat_eq_addr, v.toNat_eq_addr, hf, ha]

end Opcode

end Chip8
