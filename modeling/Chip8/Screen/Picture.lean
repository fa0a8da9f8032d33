import Chip8.Screen.Basic

/-!
# Pictures

A screen as text: a line for each row and a glyph for each pixel.
-/

namespace Chip8

structure Glyphs where
  on : Char
  off : Char
  deriving DecidableEq, Repr

namespace Glyphs

/-- A full block for a lit pixel and a blank for an unlit one. -/
def standard : Glyphs := ⟨'█', ' '⟩

instance : Inhabited Glyphs := ⟨standard⟩

def glyph (g : Glyphs) (lit : Bool) : Char := if lit then g.on else g.off

end Glyphs

namespace Screen

def pictureChars (s : Screen) (g : Glyphs) : List Char :=
  s.rows.flatMap fun row => row.map g.glyph ++ ['\n']

/-- The picture with a newline behind each row. -/
def picture (s : Screen) (g : Glyphs) : String := String.ofList (s.pictureChars g)

end Screen

end Chip8
