import Chip8.Screen.Sprite
import Mathlib.Data.List.Nodup

/-!
# Drawing sprites

A sprite has at most sixteen rows of eight pixels, so that no two of its set bits lie on the same
pixel, however the screen wraps. Flipping the pixels under them one after the other is therefore
flipping all of them at once, and each is tested for a collision as it was before the draw.
-/

namespace Chip8

namespace Sprite

variable {sprite : List UInt8} {c r : Nat}

theorem mem_cells :
    (c, r) ∈ cells sprite ↔ r < sprite.length ∧ c < 8 ∧ bit sprite c r = true := by
  simp [cells]

theorem nodup_cells (sprite : List UInt8) : (cells sprite).Nodup := by
  refine List.nodup_flatMap.mpr ⟨fun r _ => ?_, List.nodup_range.imp fun hne cell h h' => ?_⟩
  · exact (List.nodup_range.filter _).map fun c d h => (Prod.mk.inj h).1
  · simp only [List.mem_map] at h h'
    obtain ⟨c, -, rfl⟩ := h
    obtain ⟨d, -, h⟩ := h'
    exact hne (Prod.mk.inj h).2.symm

end Sprite

namespace Screen

variable {s : Screen} {x y : Nat} {sprite : List UInt8} {X : Column} {Y : Row}

/-! ## Targets -/

/-- The pixels under the set bits of a sprite with its top left corner at `(x, y)`, row by row. -/
def targets (x y : Nat) (sprite : List UInt8) : List (Column × Row) :=
  (Sprite.cells sprite).map fun cell => (column (x + cell.1), row (y + cell.2))

theorem mem_targets : (X, Y) ∈ targets x y sprite ↔
    ∃ r < sprite.length, ∃ c < 8, Y.val = (y + r) % displayHeight ∧
      X.val = (x + c) % displayWidth ∧ Sprite.bit sprite c r = true := by
  simp only [targets, List.mem_map, Prod.exists, Sprite.mem_cells, Prod.mk.injEq]
  constructor
  · rintro ⟨c, r, ⟨hr, hc, hbit⟩, rfl, rfl⟩
    exact ⟨r, hr, c, hc, rfl, rfl, hbit⟩
  · rintro ⟨r, hr, c, hc, hY, hX, hbit⟩
    exact ⟨c, r, ⟨hr, hc, hbit⟩, Fin.ext hX.symm, Fin.ext hY.symm⟩

/-- A sprite that is no higher than the screen does not overlap itself. -/
theorem nodup_targets (h : sprite.length ≤ displayHeight) : (targets x y sprite).Nodup := by
  refine (Sprite.nodup_cells sprite).map_on ?_
  rintro ⟨c, r⟩ hcell ⟨d, q⟩ hcell' heq
  obtain ⟨hr, hc, -⟩ := Sprite.mem_cells.mp hcell
  obtain ⟨hq, hd, -⟩ := Sprite.mem_cells.mp hcell'
  have hcolumn : (x + c) % displayWidth = (x + d) % displayWidth :=
    congrArg (fun p : Column × Row => p.1.val) heq
  have hrow : (y + r) % displayHeight = (y + q) % displayHeight :=
    congrArg (fun p : Column × Row => p.2.val) heq
  simp only [displayWidth, displayHeight] at h hcolumn hrow
  exact Prod.ext (by simp only; omega) (by simp only; omega)

/-! ## Strikes -/

/-- Strikes pixels one after the other. -/
def strikes (hitAndScreen : Bool × Screen) (pixels : List (Column × Row)) : Bool × Screen :=
  pixels.foldl (fun acc p => strike acc p.1 p.2) hitAndScreen

theorem draw_eq_strikes (s : Screen) (x y : Nat) (sprite : List UInt8) :
    s.draw x y sprite = strikes (false, s) (targets x y sprite) := by
  rw [draw, strikes, targets, List.foldl_map]

section
variable {pixels : List (Column × Row)}

theorem strikes_cons (hit : Bool) (s : Screen) (p : Column × Row) (pixels : List (Column × Row)) :
    strikes (hit, s) (p :: pixels) =
      strikes (hit || s.get p.1 p.2, s.flip p.1 p.2) pixels := rfl

/-- Pixels that are all different are flipped once each. -/
theorem get_strikes (h : pixels.Nodup) (hit : Bool) (s : Screen) (X : Column) (Y : Row) :
    ∀ [Decidable ((X, Y) ∈ pixels)],
      (strikes (hit, s) pixels).2.get X Y = (s.get X Y ^^ decide ((X, Y) ∈ pixels)) := by
  classical
  induction pixels generalizing hit s with
  | nil => simp [strikes]
  | cons p pixels ih =>
    obtain ⟨hp, hrest⟩ := List.nodup_cons.mp h
    intro _
    rw [strikes_cons, ih hrest, get_flip]
    by_cases hXY : X = p.1 ∧ Y = p.2
    · obtain ⟨rfl, rfl⟩ := hXY
      simp [hp]
    · simp [Prod.ext_iff, hXY]

/-- No flip hits a pixel that is still to come. -/
theorem get_flip_of_mem {p q : Column × Row} (hp : p ∉ pixels) (hq : q ∈ pixels) (s : Screen) :
    (s.flip p.1 p.2).get q.1 q.2 = s.get q.1 q.2 := by
  rw [get_flip, if_neg]
  rintro ⟨h1, h2⟩
  exact hp (Prod.ext h1 h2 ▸ hq)

/-- They are also tested as they were before. -/
theorem hit_strikes (h : pixels.Nodup) (hit : Bool) (s : Screen) :
    (strikes (hit, s) pixels).1 = true ↔ hit = true ∨ ∃ p ∈ pixels, s.get p.1 p.2 = true := by
  induction pixels generalizing hit s with
  | nil => simp [strikes]
  | cons p pixels ih =>
    obtain ⟨hp, hrest⟩ := List.nodup_cons.mp h
    have hlater : (∃ q ∈ pixels, (s.flip p.1 p.2).get q.1 q.2 = true) ↔
        ∃ q ∈ pixels, s.get q.1 q.2 = true :=
      exists_congr fun q => and_congr_right fun hq => by rw [get_flip_of_mem hp hq]
    rw [strikes_cons, ih hrest, hlater, Bool.or_eq_true, List.exists_mem_cons_iff, or_assoc]

end

/-! ## Drawing -/

section
variable (h : sprite.length ≤ displayHeight)
include h

/-- A pixel is flipped if a set bit of the sprite lies on it. -/
theorem get_draw (s : Screen) (X : Column) (Y : Row) [Decidable ((X, Y) ∈ targets x y sprite)] :
    (s.draw x y sprite).2.get X Y = (s.get X Y ^^ decide ((X, Y) ∈ targets x y sprite)) := by
  rw [draw_eq_strikes, get_strikes (nodup_targets h)]

theorem hit_draw_iff_mem (s : Screen) : (s.draw x y sprite).1 = true ↔
    ∃ p ∈ targets x y sprite, s.get p.1 p.2 = true := by
  rw [draw_eq_strikes, hit_strikes (nodup_targets h), or_iff_right Bool.false_ne_true]

/-- There is a collision if a lit pixel goes out. -/
theorem hit_draw (s : Screen) : (s.draw x y sprite).1 = true ↔
    ∃ X Y, s.get X Y = true ∧ (s.draw x y sprite).2.get X Y = false := by
  classical
  rw [hit_draw_iff_mem h, Prod.exists]
  refine exists_congr fun X => exists_congr fun Y => ?_
  rw [get_draw h, and_comm]
  refine and_congr_right fun hlit => ?_
  simp [hlit]

end

end Screen

end Chip8
