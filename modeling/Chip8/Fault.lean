import Chip8.Text.Hex

/-!
# Faults

Why an operation of the machine is refused. `Fault.message` is the one place that words them.
-/

namespace Chip8

inductive Fault where
  /-- No instruction is encoded by this word. -/
  | unknownInstruction (word : UInt16)
  /-- The call at `pc` found every frame in use. -/
  | stackOverflow (pc : UInt16)
  /-- The return at `pc` found no frame. -/
  | stackUnderflow (pc : UInt16)
  /-- The address cannot be read, or cannot be written. -/
  | addressOutOfRange (address : Nat)
  | programTooLarge (size max : Nat)
  | noSuchRegister (index : UInt8)
  | noSuchGlyph (digit : UInt8)
  | noSuchKey (key : UInt8)
  deriving DecidableEq, Repr, Inhabited

def Fault.message : Fault → String
  | .unknownInstruction w => s!"unrecognized instruction {Hex.marked 4 w.toNat}"
  | .stackOverflow pc =>
    s!"stack overflow: call at {Hex.marked 3 pc.toNat} with all 16 frames in use"
  | .stackUnderflow pc =>
    s!"stack underflow: return at {Hex.marked 3 pc.toNat} with an empty call stack"
  | .addressOutOfRange a => s!"memory address {Hex.marked 4 a} is out of range"
  | .programTooLarge size max => s!"program is too large ({size} bytes), max size is {max} bytes"
  | .noSuchRegister i => s!"register index {Hex.marked 1 i.toNat} out of bounds"
  | .noSuchGlyph d => s!"no font glyph for digit {Hex.marked 1 d.toNat}"
  | .noSuchKey k => s!"no key with value {Hex.marked 1 k.toNat}"

end Chip8
