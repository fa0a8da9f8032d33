import Mathlib.Data.Bool.Count
import Mathlib.Data.List.FinRange
import Mathlib.Data.String.Basic
import Mathlib.Tactic.Ring
import Chip8.Screen.Picture

/-!
# Pictures are faithful

Where each pixel stands in the picture of a screen, how many bytes the picture has, and that a
screen can be read back from it. A picture is made of lines of one length, so that
`getElem?_flatMap_of_length` turns a position into a row and a column; its bytes are counted over
the rows as a list, whose pixels are those of the screen.
-/

namespace Chip8

theorem length_flatMap_of_length {α β : Type} {f : α → List β} {n : Nat}
    (hf : ∀ a, (f a).length = n) (as : List α) : (as.flatMap f).length = n * as.length := by
  rw [List.length_flatMap]
  simp only [hf]
  rw [List.map_const', List.sum_replicate_nat, Nat.mul_comm]

theorem getElem?_flatMap_of_length {α β : Type} {f : α → List β} {n j : Nat}
    (hf : ∀ a, (f a).length = n) (hj : j < n) (as : List α) (i : Nat) :
    (as.flatMap f)[n * i + j]? = as[i]?.bind fun a => (f a)[j]? := by
  induction as generalizing i with
  | nil => rfl
  | cons a as ih =>
    rw [List.flatMap_cons]
    cases i with
    | zero =>
      rw [Nat.mul_zero, Nat.zero_add, List.getElem?_append_left (by rwa [hf])]
      rfl
    | succ i =>
      have hpast : n * (i + 1) + j - n = n * i + j := by rw [Nat.mul_succ]; omega
      rw [List.getElem?_append_right (by rw [hf, Nat.mul_succ]; omega), hf, hpast, ih]
      rfl

@[simp] theorem Glyphs.glyph_true (g : Glyphs) : g.glyph true = g.on := rfl

@[simp] theorem Glyphs.glyph_false (g : Glyphs) : g.glyph false = g.off := rfl

namespace Screen

variable {s : Screen} {g : Glyphs}

/-! ## Positions -/

/-- The text of a row, with the newline behind it. -/
def lineChars (s : Screen) (g : Glyphs) (y : Row) : List Char :=
  (List.finRange displayWidth).map (fun x => g.glyph (s.get x y)) ++ ['\n']

theorem length_lineChars (s : Screen) (g : Glyphs) (y : Row) : (s.lineChars g y).length = 65 := by
  simp [lineChars]

theorem getElem?_lineChars (s : Screen) (g : Glyphs) (x : Column) (y : Row) :
    (s.lineChars g y)[x.val]? = some (g.glyph (s.get x y)) := by
  rw [lineChars, List.getElem?_append_left (by simp)]
  simp

theorem getElem?_lineChars_end (s : Screen) (g : Glyphs) (y : Row) :
    (s.lineChars g y)[displayWidth]? = some '\n' := by
  rw [lineChars, List.getElem?_append_right (by simp)]
  simp

theorem pictureChars_eq (s : Screen) (g : Glyphs) :
    s.pictureChars g = (List.finRange displayHeight).flatMap (s.lineChars g) := by
  rw [pictureChars, rows, List.flatMap_map]
  simp only [List.map_map]
  rfl

theorem length_pictureChars (s : Screen) (g : Glyphs) : (s.pictureChars g).length = 65 * 32 := by
  rw [pictureChars_eq, length_flatMap_of_length (s.length_lineChars g), List.length_finRange]

theorem getElem?_pictureChars {j : Nat} (hj : j < 65) (s : Screen) (g : Glyphs) (y : Row) :
    (s.pictureChars g)[65 * y.val + j]? = (s.lineChars g y)[j]? := by
  rw [pictureChars_eq, getElem?_flatMap_of_length (s.length_lineChars g) hj]
  simp

/-! ## Bytes -/

theorem utf8Len_glyphs (g : Glyphs) (row : List Bool) :
    String.utf8Len (row.map g.glyph) =
      row.count true * g.on.utf8Size + row.count false * g.off.utf8Size := by
  induction row with
  | nil => simp
  | cons lit row ih =>
    rw [List.map_cons, String.utf8Len_cons, ih]
    cases lit with
    | true =>
      rw [List.count_cons_self, List.count_cons_of_ne (by decide), g.glyph_true]
      ring
    | false =>
      rw [List.count_cons_self, List.count_cons_of_ne (by decide), g.glyph_false]
      ring

theorem utf8Len_lines (g : Glyphs) (rows : List (List Bool)) :
    String.utf8Len (rows.flatMap fun row => row.map g.glyph ++ ['\n']) =
      rows.flatten.count true * g.on.utf8Size + rows.flatten.count false * g.off.utf8Size +
        rows.length := by
  induction rows with
  | nil => simp
  | cons row rows ih =>
    rw [List.flatMap_cons, String.utf8Len_append, String.utf8Len_append, utf8Len_glyphs, ih]
    have hend : String.utf8Len ['\n'] = 1 := rfl
    rw [hend, List.flatten_cons, List.count_append, List.count_append, List.length_cons]
    ring

theorem flatten_rows (s : Screen) : s.rows.flatten = s.pixels.toList := by
  have hpixels : s.pixels.toList = List.ofFn s.pixels.get := by
    rw [← Vector.toList_ofFn]
    exact congrArg Vector.toList Vector.ofFn_getElem.symm
  rw [hpixels, List.ofFn_mul', rows]
  simp only [List.ofFn_eq_map]
  rfl

theorem utf8Len_pictureChars (s : Screen) (g : Glyphs) :
    String.utf8Len (s.pictureChars g) =
      s.litCount * g.on.utf8Size + (2048 - s.litCount) * g.off.utf8Size + 32 := by
  have hcounts := List.count_true_add_count_false s.pixels.toList
  have hlength : s.pixels.toList.length = 2048 := Vector.length_toList
  have hunlit : s.pixels.toList.count false = 2048 - s.litCount := by
    rw [litCount]
    omega
  have hlines : s.rows.length = 32 := by simp [rows]
  rw [pictureChars, utf8Len_lines, flatten_rows, hunlit, hlines, litCount]

theorem litCount_le (s : Screen) : s.litCount ≤ 2048 :=
  List.count_le_length.trans_eq Vector.length_toList

/-! ## Reading a picture -/

/-- The screen whose lit pixels are where the text has the glyph for them. -/
def ofPicture (g : Glyphs) (text : String) : Screen :=
  ⟨Vector.ofFn fun i => text.toList[65 * (i.val / 64) + i.val % 64]? == some g.on⟩

theorem ofPicture_picture (h : g.on ≠ g.off) (s : Screen) : ofPicture g (s.picture g) = s := by
  apply ext_get
  intro x y
  have hx : (displayWidth * y.val + x.val) % 64 = x.val := by
    rw [Nat.mul_add_mod, Nat.mod_eq_of_lt x.isLt]
  have hy : (displayWidth * y.val + x.val) / 64 = y.val := by
    rw [Nat.mul_add_div (by decide), Nat.div_eq_of_lt x.isLt, Nat.add_zero]
  have hread : (ofPicture g (s.picture g)).get x y =
      ((s.picture g).toList[65 * y.val + x.val]? == some g.on) := by
    refine (Vector.getElem_ofFn (place_lt x y)).trans ?_
    rw [hx, hy]
  rw [hread, picture, String.toList_ofList, getElem?_pictureChars (Nat.lt_succ_of_lt x.isLt),
    getElem?_lineChars]
  cases s.get x y with
  | true => simp
  | false => simp [Ne.symm h]

theorem picture_inj (h : g.on ≠ g.off) {t : Screen} : s.picture g = t.picture g ↔ s = t := by
  constructor
  · intro heq
    rw [← ofPicture_picture h s, heq, ofPicture_picture h t]
  · rintro rfl
    rfl

/-- The picture has a line of 65 characters for each row, with the newline last, and in it the
glyph of each pixel in the place of its column. With `u` the UTF-8 length it has
`lit * u(on) + (2048 - lit) * u(off) + 32` bytes. If the glyphs differ, screens with the same
picture are the same, and the screen can be read back from its picture. -/
theorem picture_is_faithful (s : Screen) (g : Glyphs) :
    (s.picture g).length = 65 * 32 ∧
    (∀ (x : Column) (y : Row),
      (s.picture g).toList[65 * y.val + x.val]? = some (if s.get x y then g.on else g.off)) ∧
    (∀ y : Row, (s.picture g).toList[65 * y.val + 64]? = some '\n') ∧
    s.litCount ≤ 2048 ∧
    (s.picture g).toUTF8.size =
      s.litCount * g.on.utf8Size + (2048 - s.litCount) * g.off.utf8Size + 32 ∧
    (g.on ≠ g.off →
      (∀ t : Screen, s.picture g = t.picture g ↔ s = t) ∧ ofPicture g (s.picture g) = s) := by
  have hchars : (s.picture g).toList = s.pictureChars g := String.toList_ofList
  refine ⟨?_, fun x y => ?_, fun y => ?_, s.litCount_le, ?_,
    fun h => ⟨fun _ => picture_inj h, ofPicture_picture h s⟩⟩
  · rw [← String.length_toList, hchars, length_pictureChars]
  · rw [hchars, getElem?_pictureChars (Nat.lt_succ_of_lt x.isLt), getElem?_lineChars]
    rfl
  · rw [hchars, getElem?_pictureChars (by decide), getElem?_lineChars_end]
  · rw [String.toUTF8_eq_toByteArray, String.size_toByteArray, picture, String.utf8ByteSize_ofList,
      utf8Len_pictureChars]

end Screen

end Chip8
