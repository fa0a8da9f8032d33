/-!
# Instructions

The 35 operations. `x` and `y` name registers, `kk` is a byte constant, `n` a number of sprite rows
and `addr` an address. Nothing here bounds the operands: `Instruction.decode` yields register
operands below sixteen and addresses below 4096.
-/

namespace Chip8

inductive Instruction where
  | clear
  | ret
  | sys (addr : UInt16)
  | jump (addr : UInt16)
  | call (addr : UInt16)
  | skipEqualByte (x kk : UInt8)
  | skipUnequalByte (x kk : UInt8)
  | skipEqual (x y : UInt8)
  | loadByte (x kk : UInt8)
  | addByte (x kk : UInt8)
  | move (x y : UInt8)
  | or (x y : UInt8)
  | and (x y : UInt8)
  | xor (x y : UInt8)
  | add (x y : UInt8)
  | sub (x y : UInt8)
  | shiftRight (x : UInt8)
  | subFrom (x y : UInt8)
  | shiftLeft (x : UInt8)
  | skipUnequal (x y : UInt8)
  | loadIndex (addr : UInt16)
  | jumpOffset (addr : UInt16)
  | random (x kk : UInt8)
  | draw (x y n : UInt8)
  | skipKeyDown (x : UInt8)
  | skipKeyUp (x : UInt8)
  | loadDelay (x : UInt8)
  | awaitKey (x : UInt8)
  | setDelay (x : UInt8)
  | setSound (x : UInt8)
  | addIndex (x : UInt8)
  | loadGlyph (x : UInt8)
  | storeDecimal (x : UInt8)
  | storeRegisters (x : UInt8)
  | loadRegisters (x : UInt8)
  deriving DecidableEq, Repr, Inhabited

end Chip8
