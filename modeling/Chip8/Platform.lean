/-!
# The platform

Sizes and fixed data that every part of the machine agrees on: the display, the address space,
the call stack, the hexadecimal keypad and the built-in font.
-/

namespace Chip8

abbrev displayWidth : Nat := 64
abbrev displayHeight : Nat := 32

/-! ## Address space -/

abbrev memorySize : Nat := 4096
/-- Programs are loaded here and start here. -/
abbrev programStart : Nat := 0x200
/-- The last byte a program may write. -/
abbrev programEnd : Nat := 0xFFF
abbrev programCapacity : Nat := memorySize - programStart

/-! ## Registers, frames and keys -/

abbrev registerCount : Nat := 16
/-- `VF` receives carries, borrows and collisions. -/
abbrev flagRegister : Nat := 15
abbrev stackDepth : Nat := 16
abbrev keyCount : Nat := 16

/-! ## Pace -/

/-- The length of a cycle in nanoseconds. -/
abbrev cycleNanoseconds : Nat := 2000000
/-- Where the timer counter starts again after a tick. -/
abbrev cyclesPerTick : Nat := 8

/-! ## Font -/

abbrev glyphSize : Nat := 5

/-- The glyphs of the digits `0` to `F`, five rows each, leftmost pixel in the high bit. -/
def fontSheet : List UInt8 := [
  0xF0, 0x90, 0x90, 0x90, 0xF0,
  0x20, 0x60, 0x20, 0x20, 0x70,
  0xF0, 0x10, 0xF0, 0x80, 0xF0,
  0xF0, 0x10, 0xF0, 0x10, 0xF0,
  0x90, 0x90, 0xF0, 0x10, 0x10,
  0xF0, 0x80, 0xF0, 0x10, 0xF0,
  0xF0, 0x80, 0xF0, 0x90, 0xF0,
  0xF0, 0x10, 0x20, 0x40, 0x40,
  0xF0, 0x90, 0xF0, 0x90, 0xF0,
  0xF0, 0x90, 0xF0, 0x10, 0xF0,
  0xF0, 0x90, 0xF0, 0x90, 0x90,
  0xE0, 0x90, 0xE0, 0x90, 0xE0,
  0xF0, 0x80, 0x80, 0x80, 0xF0,
  0xE0, 0x90, 0x90, 0x90, 0xE0,
  0xF0, 0x80, 0xF0, 0x80, 0xF0,
  0xF0, 0x80, 0xF0, 0x80, 0x80]

theorem length_fontSheet : fontSheet.length = keyCount * glyphSize := rfl

end Chip8
