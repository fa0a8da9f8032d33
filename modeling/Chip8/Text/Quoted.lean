import Chip8.Text.Faceless
import Chip8.Text.Hex

/-!
# Quoted text

A text between double quotes. Quotes, backslashes and the usual controls are escaped by a letter,
every other character without a face of its own by its code in lower-case hexadecimal digits
between braces.
-/

namespace Chip8.Quoted

/-- The letter behind the backslash. -/
def shortEscape? : Char → Option Char
  | '\x00' => some '0'
  | '\t' => some 't'
  | '\n' => some 'n'
  | '\r' => some 'r'
  | '"' => some '"'
  | '\\' => some '\\'
  | _ => none

def encodeChar (c : Char) : List Char :=
  match shortEscape? c with
  | some e => ['\\', e]
  | none =>
    if faceless.contains c then
      ['\\', 'u', '\x7b'] ++ Hex.padded .lower 1 c.toNat ++ ['\x7d']
    else [c]

def encode (cs : List Char) : String :=
  String.ofList ('"' :: cs.flatMap encodeChar ++ ['"'])

end Chip8.Quoted
