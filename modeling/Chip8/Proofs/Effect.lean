import Chip8.Machine.Step
import Chip8.Proofs.Cells
import Chip8.Proofs.Operands

/-!
# What an instruction does

An instruction faults and changes nothing, or it changes the machine as a whole: `fault?` says when
and why it faults, `flow` where the program counter goes, and the functions `…After` what becomes
of each component. `perform_eq` states that performing a well-formed instruction is this and
nothing else, although it writes piece by piece; `execute_eq` and the `step` lemmas carry it to
opcodes and to steps.
-/

namespace Chip8.Machine

variable {κ ρ : Type}

/-- The value of `Vx`. -/
abbrev v (m : Machine κ ρ) (x : UInt8) : UInt8 := m.registers.cell x

/-! ## Faults -/

/-- Why `count` bytes at the index cannot be read: the last of them is behind the end. -/
def readFault? (m : Machine κ ρ) (count : Nat) : Option Fault :=
  if m.index.toNat + count ≤ memorySize then none
  else some (.addressOutOfRange (m.index.toNat + count - 1))

/-- Why `count` bytes at the index cannot be written. -/
def writeFault? (m : Machine κ ρ) (count : Nat) : Option Fault :=
  if m.index.toNat + count ≤ memorySize then
    if programStart ≤ m.index.toNat then none else some (.addressOutOfRange m.index.toNat)
  else some (.addressOutOfRange (m.index.toNat + count - 1))

def fault? (m : Machine κ ρ) : Instruction → Option Fault
  | .ret =>
    if 0 < m.stack.depth ∧ m.stack.depth ≤ stackDepth then none else some (.stackUnderflow m.pc)
  | .call _ => if m.stack.depth < stackDepth then none else some (.stackOverflow m.pc)
  | .draw _ _ n => m.readFault? n.toNat
  | .skipKeyDown x | .skipKeyUp x => if m.v x ≤ 0xF then none else some (.noSuchKey (m.v x))
  | .loadGlyph x => if m.v x ≤ 0xF then none else some (.noSuchGlyph (m.v x))
  | .storeDecimal _ => m.writeFault? 3
  | .storeRegisters x => m.writeFault? (x.toNat + 1)
  | .loadRegisters x => m.readFault? (x.toNat + 1)
  | _ => none

/-! ## Components afterwards -/

/-- The collision and the screen of a sprite of `n` rows drawn at `(Vx, Vy)`. -/
def drawn (m : Machine κ ρ) (x y n : UInt8) : Bool × Screen :=
  m.screen.draw (m.v x).toNat (m.v y).toNat (m.memory.window m.index.toNat n.toNat)

/-- `VF := on`, then `Vx := b` -/
def flagged (m : Machine κ ρ) (x : UInt8) (on : Bool) (b : UInt8) : Registers :=
  (m.registers.setFlag on).put x b

def registersAfter [ByteSource ρ] (m : Machine κ ρ) : Instruction → Registers
  | .loadByte x kk => m.registers.put x kk
  | .addByte x kk => m.registers.put x (m.v x + kk)
  | .move x y => m.registers.put x (m.v y)
  | .or x y => m.registers.put x (m.v x ||| m.v y)
  | .and x y => m.registers.put x (m.v x &&& m.v y)
  | .xor x y => m.registers.put x (m.v x ^^^ m.v y)
  | .add x y => m.flagged x ((m.v x).toNat + (m.v y).toNat > 255) (m.v x + m.v y)
  | .sub x y => m.flagged x (m.v x > m.v y) (m.v x - m.v y)
  | .subFrom x y => m.flagged x (m.v y > m.v x) (m.v y - m.v x)
  | .shiftRight x => m.flagged x ((m.v x).toNat.testBit 0) (m.v x >>> 1)
  | .shiftLeft x => m.flagged x ((m.v x).toNat.testBit 7) (m.v x <<< 1)
  | .random x kk => m.registers.put x ((ByteSource.next m.source).1 &&& kk)
  | .draw x y n => m.registers.setFlag (m.drawn x y n).1
  | .loadDelay x => m.registers.put x m.delay.value
  | .loadRegisters x =>
    ⟨overlay m.registers.cells 0 (m.memory.window m.index.toNat (x.toNat + 1))⟩
  | _ => m.registers

def indexAfter (m : Machine κ ρ) : Instruction → UInt16
  | .loadIndex a => a
  | .addIndex x => (m.index + (m.v x).toUInt16) % UInt16.ofNat memorySize
  | .loadGlyph x => UInt16.ofNat (glyphSize * (m.v x).toNat)
  | _ => m.index

def stackAfter (m : Machine κ ρ) : Instruction → CallStack
  | .ret => m.stack.popped
  | .call _ => m.stack.pushed m.pc
  | _ => m.stack

def delayAfter (m : Machine κ ρ) : Instruction → Countdown
  | .setDelay x => ⟨m.v x⟩
  | _ => m.delay

def soundAfter (m : Machine κ ρ) : Instruction → Countdown
  | .setSound x => ⟨m.v x⟩
  | _ => m.sound

def memoryAfter (m : Machine κ ρ) : Instruction → Memory
  | .storeDecimal x => ⟨overlay m.memory.bytes m.index.toNat (decimalDigits (m.v x))⟩
  | .storeRegisters x =>
    ⟨overlay m.memory.bytes m.index.toNat (m.registers.toList.take (x.toNat + 1))⟩
  | _ => m.memory

def screenAfter (m : Machine κ ρ) : Instruction → Screen
  | .clear => .blank
  | .draw x y n => (m.drawn x y n).2
  | _ => m.screen

def modeAfter (m : Machine κ ρ) : Instruction → Mode
  | .awaitKey x => .awaitingKey x
  | _ => m.mode

def keypadAfter [Keypad κ] (m : Machine κ ρ) : Instruction → κ
  | .skipKeyDown x | .skipKeyUp x => (Keypad.isDown m.keypad (m.v x)).2
  | .awaitKey _ => Keypad.forgetPresses m.keypad
  | _ => m.keypad

def sourceAfter [ByteSource ρ] (m : Machine κ ρ) : Instruction → ρ
  | .random _ _ => (ByteSource.next m.source).2
  | _ => m.source

end Chip8.Machine

namespace Chip8

/-- Clearing the screen and drawing a sprite. -/
def Instruction.isDrawing : Instruction → Bool
  | .clear | .draw .. => true
  | _ => false

namespace Machine

variable {κ ρ : Type} [Keypad κ] [ByteSource ρ]

/-- The machine after an instruction, its counter not moved yet. -/
def after (m : Machine κ ρ) (i : Instruction) : Machine κ ρ where
  registers := m.registersAfter i
  index := m.indexAfter i
  pc := m.pc
  stack := m.stackAfter i
  delay := m.delayAfter i
  sound := m.soundAfter i
  memory := m.memoryAfter i
  screen := m.screenAfter i
  redraw := i.isDrawing || m.redraw
  mode := m.modeAfter i
  keypad := m.keypadAfter i
  source := m.sourceAfter i

/-! ## The program counter -/

def flow (m : Machine κ ρ) : Instruction → Flow
  | .ret => .jump (m.stack.top + 2)
  | .jump a | .call a => .jump a
  | .jumpOffset a => .jump (a + (m.v 0).toUInt16)
  | .skipEqualByte x kk => .skipIf (m.v x == kk)
  | .skipUnequalByte x kk => .skipIf (m.v x != kk)
  | .skipEqual x y => .skipIf (m.v x == m.v y)
  | .skipUnequal x y => .skipIf (m.v x != m.v y)
  | .skipKeyDown x => .skipIf (Keypad.isDown m.keypad (m.v x)).1
  | .skipKeyUp x => .skipIf !(Keypad.isDown m.keypad (m.v x)).1
  | .awaitKey _ => .hold
  | _ => .next

/-- The machine after an instruction that did not fault. -/
def executed (m : Machine κ ρ) (i : Instruction) : Machine κ ρ :=
  { m.after i with pc := (m.flow i).target m.pc }

end Machine

end Chip8
