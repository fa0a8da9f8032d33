import Chip8.Fault
import Chip8.Instruction.Basic
import Chip8.Opcode

/-!
# Decoding

The instruction table, by family. The machine-code call `0nnn` covers every word of family 0 that
is neither `00E0` nor `00EE`; the shifts `8xy6` and `8xyE` ignore `y`.
-/

namespace Chip8.Instruction

/-- Family 8: arithmetic on two registers, selected by the low nibble. -/
def decodeArithmetic? (x y n : UInt8) : Option Instruction :=
  match n with
  | 0x0 => some (.move x y)
  | 0x1 => some (.or x y)
  | 0x2 => some (.and x y)
  | 0x3 => some (.xor x y)
  | 0x4 => some (.add x y)
  | 0x5 => some (.sub x y)
  | 0x6 => some (.shiftRight x)
  | 0x7 => some (.subFrom x y)
  | 0xE => some (.shiftLeft x)
  | _ => none

/-- Family F: timers, the index register and memory blocks, selected by the low byte. -/
def decodeMisc? (x kk : UInt8) : Option Instruction :=
  match kk with
  | 0x07 => some (.loadDelay x)
  | 0x0A => some (.awaitKey x)
  | 0x15 => some (.setDelay x)
  | 0x18 => some (.setSound x)
  | 0x1E => some (.addIndex x)
  | 0x29 => some (.loadGlyph x)
  | 0x33 => some (.storeDecimal x)
  | 0x55 => some (.storeRegisters x)
  | 0x65 => some (.loadRegisters x)
  | _ => none

/-- The instruction of a word with these nibbles, this low byte and this address. -/
def ofFields? (family x y n kk : UInt8) (addr : UInt16) : Option Instruction :=
  match family with
  | 0x0 =>
    if addr = 0x0E0 then some .clear
    else if addr = 0x0EE then some .ret
    else some (.sys addr)
  | 0x1 => some (.jump addr)
  | 0x2 => some (.call addr)
  | 0x3 => some (.skipEqualByte x kk)
  | 0x4 => some (.skipUnequalByte x kk)
  | 0x5 => if n = 0 then some (.skipEqual x y) else none
  | 0x6 => some (.loadByte x kk)
  | 0x7 => some (.addByte x kk)
  | 0x8 => decodeArithmetic? x y n
  | 0x9 => if n = 0 then some (.skipUnequal x y) else none
  | 0xA => some (.loadIndex addr)
  | 0xB => some (.jumpOffset addr)
  | 0xC => some (.random x kk)
  | 0xD => some (.draw x y n)
  | 0xE =>
    if kk = 0x9E then some (.skipKeyDown x)
    else if kk = 0xA1 then some (.skipKeyUp x)
    else none
  | 0xF => decodeMisc? x kk
  | _ => none

def decode? (w : Opcode) : Option Instruction := ofFields? w.family w.x w.y w.n w.kk w.addr

def decode (w : Opcode) : Except Fault Instruction :=
  match decode? w with
  | some i => .ok i
  | none => .error (.unknownInstruction w)

theorem decode_eq_ok_iff {w : Opcode} {i : Instruction} :
    decode w = .ok i ↔ decode? w = some i := by
  unfold decode
  split <;> simp_all

theorem decode_eq_error_iff {w : Opcode} {e : Fault} :
    decode w = .error e ↔ decode? w = none ∧ e = .unknownInstruction w := by
  unfold decode
  split
  · simp_all
  · simp_all [eq_comm]

end Chip8.Instruction
