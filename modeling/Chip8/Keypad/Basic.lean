/-!
# Keypads

What the machine asks of a keypad: whether a key is down, whether one was pressed, and to forget
earlier presses. Every query may change the keypad, so each one yields it anew.
-/

namespace Chip8

class Keypad (κ : Type) where
  isDown : κ → UInt8 → Bool × κ
  /-- The press to deliver, if there is one; it is delivered once. -/
  nextPress : κ → Option UInt8 × κ
  forgetPresses : κ → κ

end Chip8
