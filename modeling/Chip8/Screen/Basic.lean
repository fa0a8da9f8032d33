import Chip8.Platform

/-!
# The screen

64 by 32 pixels, kept row after row. Columns count from the left and rows from the top.
-/

namespace Chip8

abbrev pixelCount : Nat := displayWidth * displayHeight

structure Screen where
  pixels : Vector Bool pixelCount
  deriving DecidableEq

namespace Screen

abbrev Column := Fin displayWidth
abbrev Row := Fin displayHeight

theorem place_lt (x : Column) (y : Row) : displayWidth * y.val + x.val < pixelCount := by
  have hx : x.val < 64 := x.isLt
  have hy : y.val < 32 := y.isLt
  simp only [displayWidth, pixelCount, displayHeight]
  omega

def blank : Screen := ⟨Vector.replicate _ false⟩

instance : Inhabited Screen := ⟨blank⟩

def get (s : Screen) (x : Column) (y : Row) : Bool :=
  s.pixels.get ⟨displayWidth * y.val + x.val, place_lt x y⟩

def set (s : Screen) (x : Column) (y : Row) (lit : Bool) : Screen :=
  ⟨s.pixels.set (displayWidth * y.val + x.val) lit (place_lt x y)⟩

/-- The pixel at a position that may lie outside. -/
def get? (s : Screen) (x y : Nat) : Option Bool :=
  if h : x < displayWidth ∧ y < displayHeight then some (s.get ⟨x, h.1⟩ ⟨y, h.2⟩) else none

def set? (s : Screen) (x y : Nat) (lit : Bool) : Option Screen :=
  if h : x < displayWidth ∧ y < displayHeight then some (s.set ⟨x, h.1⟩ ⟨y, h.2⟩ lit) else none

/-- The pixels of each row, top row first. -/
def rows (s : Screen) : List (List Bool) :=
  (List.finRange displayHeight).map fun y => (List.finRange displayWidth).map fun x => s.get x y

/-- How many pixels are lit. -/
def litCount (s : Screen) : Nat := s.pixels.toList.count true

theorem place_inj {x x' : Column} {y y' : Row}
    (h : displayWidth * y.val + x.val = displayWidth * y'.val + x'.val) : x = x' ∧ y = y' := by
  have hx : x.val < 64 := x.isLt
  have hx' : x'.val < 64 := x'.isLt
  simp only [displayWidth] at h
  exact ⟨Fin.ext (by omega), Fin.ext (by omega)⟩

theorem get_set (s : Screen) (x x' : Column) (y y' : Row) (lit : Bool) :
    (s.set x y lit).get x' y' = if x' = x ∧ y' = y then lit else s.get x' y' := by
  by_cases h : displayWidth * y.val + x.val = displayWidth * y'.val + x'.val
  · obtain ⟨rfl, rfl⟩ := place_inj h
    rw [if_pos ⟨rfl, rfl⟩]
    exact Vector.getElem_set_self (place_lt _ _)
  · have hne : ¬(x' = x ∧ y' = y) := fun e => h (by rw [e.1, e.2])
    rw [if_neg hne]
    exact Vector.getElem_set_ne (place_lt x y) (place_lt x' y') h

/-- A screen is what its pixels are. -/
theorem ext_get {s t : Screen} (h : ∀ x y, s.get x y = t.get x y) : s = t := by
  obtain ⟨pixels⟩ := s
  obtain ⟨pixels'⟩ := t
  congr
  ext i hi
  have hx : i % displayWidth < displayWidth := Nat.mod_lt _ (by decide)
  have hy : i / displayWidth < displayHeight := Nat.div_lt_of_lt_mul hi
  have hplace : displayWidth * (i / displayWidth) + i % displayWidth = i := Nat.div_add_mod i _
  have hget := h ⟨_, hx⟩ ⟨_, hy⟩
  simp only [get, hplace] at hget
  exact hget

@[simp] theorem get_blank (x : Column) (y : Row) : blank.get x y = false :=
  Vector.getElem_replicate _

end Screen

end Chip8
