import Chip8.Screen.Basic

/-!
# Sprites

A sprite is a list of rows of eight pixels, leftmost pixel in the high bit. Drawing flips the
pixels under its set bits; columns and rows wrap around the edges of the screen.
-/

namespace Chip8

namespace Sprite

/-- Whether the sprite is set at column `c` of row `r`. -/
def bit (sprite : List UInt8) (c r : Nat) : Bool := (sprite.getD r 0).toNat.testBit (7 - c)

/-- Column and row of every set bit, row by row. -/
def cells (sprite : List UInt8) : List (Nat × Nat) :=
  (List.range sprite.length).flatMap fun r =>
    ((List.range 8).filter fun c => bit sprite c r).map fun c => (c, r)

end Sprite

namespace Screen

def column (x : Nat) : Column := Fin.ofNat displayWidth x
def row (y : Nat) : Row := Fin.ofNat displayHeight y

def flip (s : Screen) (x : Column) (y : Row) : Screen := s.set x y (!s.get x y)

/-- One set bit at a pixel: whether it was lit, and the screen with it flipped. -/
def strike (hitAndScreen : Bool × Screen) (x : Column) (y : Row) : Bool × Screen :=
  let (hit, s) := hitAndScreen
  let hit := hit || s.get x y
  (hit, s.flip x y)

/-- Draws a sprite with its top left corner at `(x, y)`; true if a lit pixel went out. -/
def draw (s : Screen) (x y : Nat) (sprite : List UInt8) : Bool × Screen :=
  (Sprite.cells sprite).foldl
    (fun acc cell => strike acc (column (x + cell.1)) (row (y + cell.2))) (false, s)

theorem get_flip (s : Screen) (x x' : Column) (y y' : Row) :
    (s.flip x y).get x' y' = if x' = x ∧ y' = y then !s.get x' y' else s.get x' y' := by
  unfold flip
  rw [get_set]
  split
  · rename_i h
    rw [h.1, h.2]
  · rfl

end Screen

end Chip8
