import Chip8.Keypad.Basic

/-!
# Scripted and recorded keypads

A scripted keypad answers from lists fixed in advance. A recorded keypad passes every query on to
another one and keeps a record of it, oldest first.
-/

namespace Chip8

/-! ## Scripts -/

structure ScriptedPad where
  down : List UInt8
  /-- The answers to coming polls; without one nothing is pressed. -/
  polls : List (Option UInt8)
  deriving DecidableEq, Repr, Inhabited

namespace ScriptedPad

instance : Keypad ScriptedPad where
  isDown p k := (p.down.contains k, p)
  nextPress p := (p.polls.head?.join, { p with polls := p.polls.tail })
  forgetPresses p := p

end ScriptedPad

/-! ## Records -/

inductive KeypadQuery where
  | isDown (key : UInt8)
  | nextPress
  | forgetPresses
  deriving DecidableEq, Repr

structure RecordedPad (κ : Type) where
  pad : κ
  queries : List KeypadQuery

namespace RecordedPad

variable {κ : Type}

def ofPad (pad : κ) : RecordedPad κ := ⟨pad, []⟩

/-- The same keypad with an empty record. -/
def rewound (p : RecordedPad κ) : RecordedPad κ := ⟨p.pad, []⟩

instance [Keypad κ] : Keypad (RecordedPad κ) where
  isDown p k :=
    let (down, pad) := Keypad.isDown p.pad k
    (down, ⟨pad, p.queries ++ [.isDown k]⟩)
  nextPress p :=
    let (press, pad) := Keypad.nextPress p.pad
    (press, ⟨pad, p.queries ++ [.nextPress]⟩)
  forgetPresses p := ⟨Keypad.forgetPresses p.pad, p.queries ++ [.forgetPresses]⟩

end RecordedPad

end Chip8
