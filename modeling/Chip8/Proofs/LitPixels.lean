import Chip8.Proofs.Drawing
import Chip8.Proofs.Sequences
import Mathlib.Algebra.GroupWithZero.Nat

/-!
# Lit pixels

How a draw changes the number of lit pixels. A flip lights a pixel or puts one out, so that with
every lit pixel under the sprite counted twice the count grows by the set bits of the sprite;
`litCount_flip` is one flip and `litCount_strikes` the induction over the pixels of a sprite.
-/

namespace Chip8

namespace Sprite

variable {sprite : List UInt8}

/-- How many bits of a byte are set. -/
def setBits (b : UInt8) : Nat := (List.range 8).countP b.toNat.testBit

/-- The set bits with a property, row by row. -/
theorem countP_cells (p : Nat × Nat → Bool) : (cells sprite).countP p =
    ((List.range sprite.length).map fun r =>
      (List.range 8).countP fun c => p (c, r) && bit sprite c r).sum := by
  simp only [cells, List.countP_flatMap, Function.comp_def, List.countP_map, List.countP_filter]

theorem countP_bit (r : Nat) : (List.range 8).countP (fun c => bit sprite c r) =
    setBits (sprite.getD r 0) := by
  have hreverse : (List.range 8).map (7 - ·) = (List.range 8).reverse := by decide
  calc (List.range 8).countP (fun c => bit sprite c r)
    _ = ((List.range 8).map (7 - ·)).countP (sprite.getD r 0).toNat.testBit :=
      List.countP_map.symm
    _ = setBits (sprite.getD r 0) := by rw [hreverse, List.countP_reverse, setBits]

theorem length_cells (sprite : List UInt8) :
    (cells sprite).length = (sprite.map setBits).sum := by
  have hrows : sprite.map setBits =
      (List.range sprite.length).map fun r => setBits (sprite.getD r 0) := by
    apply List.ext_getElem
    · simp
    · intro r h1 h2
      have hr : r < sprite.length := by simpa using h1
      simp [hr]
  rw [hrows, ← List.countP_true, countP_cells]
  simp only [Bool.true_and, countP_bit]

end Sprite

namespace Screen

variable {s : Screen} {x y : Nat} {sprite : List UInt8} {pixels : List (Column × Row)}

theorem litCount_flip (s : Screen) (X : Column) (Y : Row) :
    (s.flip X Y).litCount + 2 * (if s.get X Y then 1 else 0) = s.litCount + 1 := by
  have hplace := place_lt X Y
  have hget : s.pixels[displayWidth * Y.val + X.val] = s.get X Y := rfl
  simp only [litCount, flip, set, Vector.count_toList, Vector.count_set, hget]
  cases hlit : s.get X Y with
  | false => simp
  | true =>
    have hpos : 0 < s.pixels.count true :=
      Vector.count_pos_iff.mpr (hlit ▸ hget ▸ Vector.getElem_mem _)
    simp only [Bool.not_true, Bool.false_eq_true, beq_iff_eq, reduceIte]
    omega

/-- Every pixel that was lit counts twice: it would have been lit, and it is out. -/
theorem litCount_strikes (h : pixels.Nodup) (hit : Bool) (s : Screen) :
    (strikes (hit, s) pixels).2.litCount + 2 * pixels.countP (fun p => s.get p.1 p.2) =
      s.litCount + pixels.length := by
  induction pixels generalizing hit s with
  | nil => simp [strikes]
  | cons p pixels ih =>
    obtain ⟨hp, hrest⟩ := List.nodup_cons.mp h
    have hlater : pixels.countP (fun q => (s.flip p.1 p.2).get q.1 q.2) =
        pixels.countP fun q => s.get q.1 q.2 :=
      List.countP_congr fun q hq => by rw [get_flip_of_mem hp hq]
    have hrun := ih hrest (hit || s.get p.1 p.2) (s.flip p.1 p.2)
    have hflip := litCount_flip s p.1 p.2
    rw [strikes_cons, List.countP_cons, List.length_cons]
    omega

theorem litCount_draw (h : sprite.length ≤ displayHeight) (s : Screen) :
    (s.draw x y sprite).2.litCount + 2 * (targets x y sprite).countP (fun p => s.get p.1 p.2) =
      s.litCount + (targets x y sprite).length := by
  rw [draw_eq_strikes, litCount_strikes (nodup_targets h)]

end Screen

namespace Machine

variable {κ ρ : Type} {m t : Machine κ ρ} {w : Opcode}

/-- How many set bits of the sprite that a `Dxyn` draws lie on a lit pixel. -/
def litBits (m : Machine κ ρ) (w : Opcode) : Nat :=
  ((List.range w.n.toNat).map fun r => (List.range 8).countP fun c =>
    m.screen.get (Screen.column ((m.v w.x).toNat + c)) (Screen.row ((m.v w.y).toNat + r)) &&
      (m.memory.byte (m.index.toNat + r)).toNat.testBit (7 - c)).sum

theorem litBits_eq (m : Machine κ ρ) (w : Opcode) : m.litBits w =
    (Screen.targets (m.v w.x).toNat (m.v w.y).toNat (m.sprite w)).countP
      fun p => m.screen.get p.1 p.2 := by
  rw [Screen.targets, List.countP_map, Sprite.countP_cells, length_sprite, litBits]
  refine congrArg List.sum (List.map_congr_left fun r hr => ?_)
  simp only [Function.comp_apply, Sprite.bit, sprite, Memory.getD_window (List.mem_range.mp hr)]

variable [Keypad κ] [ByteSource ρ]

/-- A draw adds the set bits of its sprite to the lit pixels, less twice those that lie on lit
pixels, however the sprite wraps; `VF` tells whether there are such bits. -/
theorem lit_pixels_of_draw (hw : w.family = 0xD) (h : execute w m = (.ok (), t)) :
    let total := ((m.memory.window m.index.toNat w.n.toNat).map Sprite.setBits).sum
    t.screen.litCount + 2 * m.litBits w = m.screen.litCount + total ∧
      (t.v 0xF = 1 ↔ 0 < m.litBits w) ∧
      (t.v 0xF = 0 ↔ t.screen.litCount = m.screen.litCount + total) := by
  intro total
  have hlength := m.length_sprite_le w
  have htotal : (Screen.targets (m.v w.x).toNat (m.v w.y).toNat (m.sprite w)).length = total := by
    rw [Screen.targets, List.length_map, Sprite.length_cells]
    rfl
  have hlit : t.screen.litCount + 2 * m.litBits w = m.screen.litCount + total := by
    rw [eq_executed_of_row (.draw hw) h, screen_executed_draw, litBits_eq, ← htotal]
    exact Screen.litCount_draw hlength m.screen
  have hflag : t.v 0xF = if 0 < m.litBits w then 1 else 0 := by
    rw [eq_executed_of_row (.draw hw) h, v_executed_draw, if_pos rfl, litBits_eq]
    refine if_congr ?_ rfl rfl
    rw [Screen.hit_draw_iff_mem hlength, List.countP_pos_iff]
  by_cases hsome : 0 < m.litBits w
  · rw [if_pos hsome] at hflag
    exact ⟨hlit, iff_of_true hflag hsome, iff_of_false (by simp [hflag]) (by omega)⟩
  · rw [if_neg hsome] at hflag
    exact ⟨hlit, iff_of_false (by simp [hflag]) hsome, iff_of_true hflag (by omega)⟩

omit [Keypad κ] [ByteSource ρ] in
theorem window_fresh {a count : Nat} (h : a + count ≤ memorySize) :
    Memory.fresh.window a count = (List.range count).map fun j => fontSheet.getD (a + j) 0 := by
  refine List.map_congr_left fun j hj => ?_
  have hj := List.mem_range.mp hj
  exact byte_fresh (by omega)

/-- The glyph of `0` over one lit pixel: thirteen of its fourteen bits light theirs. -/
theorem lit_pixels_of_draw_glyph :
    let m := { Machine.fresh HexPad.idle (WordCycle.ofList []) with
      screen := Screen.blank.set 2 4 true }
    Opcode.family 0xD005 = 0xD ∧ ∃ t, execute 0xD005 m = (.ok (), t) ∧ m.litBits 0xD005 = 1 ∧
      t.screen.litCount + 2 * 1 = m.screen.litCount + 14 ∧ t.v 0xF = 1 := by
  intro m
  have hok : execute 0xD005 m = (.ok (), m.executed (.draw 0 0 5)) :=
    execute_of_row (w := 0xD005) (.draw rfl) rfl
  have hwindow : m.memory.window 0 5 = [0xF0, 0x90, 0x90, 0x90, 0xF0] :=
    window_fresh (by decide)
  have hbits : m.litBits 0xD005 = 1 := by
    have hsprite : m.sprite 0xD005 = [0xF0, 0x90, 0x90, 0x90, 0xF0] := hwindow
    rw [litBits_eq, hsprite]
    simp only [m, Screen.get_set, Screen.get_blank]
    decide
  obtain ⟨hlit, hflag, -⟩ := lit_pixels_of_draw (w := 0xD005) rfl hok
  refine ⟨rfl, _, hok, hbits, ?_, hflag.mpr (hbits ▸ Nat.one_pos)⟩
  rw [hbits] at hlit
  exact hlit.trans (congrArg _ (congrArg (fun bytes => (bytes.map Sprite.setBits).sum) hwindow))

end Machine

end Chip8
