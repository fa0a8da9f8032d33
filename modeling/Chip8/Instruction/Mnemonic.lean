import Chip8.Instruction.Basic
import Chip8.Text.Hex

/-!
# Mnemonics

The assembly text of an instruction: its name, a blank, and its operands with `, ` between them.
Addresses have at least three digits and byte constants at least two, so the two never look alike;
the row count of a sprite alone is decimal.
-/

namespace Chip8.Instruction

inductive Operand where
  | register (x : UInt8)
  | byte (b : UInt8)
  | address (a : UInt16)
  | rows (n : UInt8)
  | index
  /-- The memory block that starts at the index register. -/
  | block
  | delay
  | sound
  | key
  | glyph
  | decimal
  deriving DecidableEq, Repr

def Operand.text : Operand → String
  | register x => "V" ++ Hex.upper 1 x.toNat
  | byte b => Hex.marked 2 b.toNat
  | address a => Hex.marked 3 a.toNat
  | rows n => toString n.toNat
  | index => "I"
  | block => "[I]"
  | delay => "DT"
  | sound => "ST"
  | key => "K"
  | glyph => "F"
  | decimal => "B"

def name : Instruction → String
  | clear => "CLS"
  | ret => "RET"
  | sys _ => "SYS"
  | jump _ | jumpOffset _ => "JP"
  | call _ => "CALL"
  | skipEqualByte .. | skipEqual .. => "SE"
  | skipUnequalByte .. | skipUnequal .. => "SNE"
  | loadByte .. | move .. | loadIndex _ | loadDelay _ | awaitKey _ | setDelay _ | setSound _
  | loadGlyph _ | storeDecimal _ | storeRegisters _ | loadRegisters _ => "LD"
  | addByte .. | add .. | addIndex _ => "ADD"
  | or .. => "OR"
  | and .. => "AND"
  | xor .. => "XOR"
  | sub .. => "SUB"
  | subFrom .. => "SUBN"
  | shiftRight _ => "SHR"
  | shiftLeft _ => "SHL"
  | random .. => "RND"
  | draw .. => "DRW"
  | skipKeyDown _ => "SKP"
  | skipKeyUp _ => "SKNP"

/-- The operands as written, the destination first. -/
def operands : Instruction → List Operand
  | clear | ret => []
  | sys a | jump a | call a => [.address a]
  | skipEqualByte x kk | skipUnequalByte x kk | loadByte x kk | addByte x kk | random x kk =>
    [.register x, .byte kk]
  | skipEqual x y | skipUnequal x y | move x y | or x y | and x y | xor x y | add x y | sub x y
  | subFrom x y => [.register x, .register y]
  | shiftRight x | shiftLeft x | skipKeyDown x | skipKeyUp x => [.register x]
  | loadIndex a => [.index, .address a]
  | jumpOffset a => [.register 0, .address a]
  | draw x y n => [.register x, .register y, .rows n]
  | loadDelay x => [.register x, .delay]
  | awaitKey x => [.register x, .key]
  | setDelay x => [.delay, .register x]
  | setSound x => [.sound, .register x]
  | addIndex x => [.index, .register x]
  | loadGlyph x => [.glyph, .register x]
  | storeDecimal x => [.decimal, .register x]
  | storeRegisters x => [.block, .register x]
  | loadRegisters x => [.register x, .block]

def mnemonic (i : Instruction) : String :=
  match i.operands with
  | [] => i.name
  | ops => i.name ++ " " ++ ", ".intercalate (ops.map Operand.text)

end Chip8.Instruction
