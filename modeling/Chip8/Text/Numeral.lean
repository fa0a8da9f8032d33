import Chip8.Text.Hex

/-!
# Numerals

Reading a number up to a limit: at most one plus sign, then one or more digits of the radix, in
either case. Leading zeros do not count against the limit.
-/

namespace Chip8.Numeral

def digit? (radix : Nat) (c : Char) : Option Nat := do
  let d ← Hex.value? c
  if d < radix then some d else none

/-- The value of a list of digits, most significant first. -/
def value (radix : Nat) (digits : List Nat) : Nat := digits.foldl (fun n d => radix * n + d) 0

def stripPlus : List Char → List Char
  | '+' :: cs => cs
  | cs => cs

/-- The number written, if it is well formed and at most `limit`. -/
def read? (radix limit : Nat) (cs : List Char) : Option Nat :=
  match stripPlus cs with
  | [] => none
  | c :: cs => do
    let n := value radix (← (c :: cs).mapM (digit? radix))
    if n ≤ limit then some n else none

end Chip8.Numeral
