import Chip8.Text.Blank
import Chip8.Text.Numeral
import Chip8.Text.Quoted

/-!
# Keys on the command line

A key is a hexadecimal number of at most `F`, with blanks around it, a plus sign and leading zeros
allowed.
-/

namespace Chip8.CommandLine

/-- The text is not a key. -/
structure NotAKey where
  text : String
  deriving DecidableEq, Repr

/-- The text is quoted as it was given, blanks included. -/
def NotAKey.message (e : NotAKey) : String :=
  Quoted.encode e.text.toList ++ " is not a key between 0 and F"

def readKey? (cs : List Char) : Option UInt8 :=
  (Numeral.read? 16 0xF (trim cs)).map UInt8.ofNat

def readKey (text : String) : Except NotAKey UInt8 :=
  match readKey? text.toList with
  | some k => .ok k
  | none => .error ⟨text⟩

end Chip8.CommandLine
