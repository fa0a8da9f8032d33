import Chip8.Proofs.Drawing
import Chip8.Proofs.Sequences
import Mathlib.Data.Nat.Bits

/-!
# Stamps

A stamp aims the index at a sprite and draws it, at coordinates that are not in `VF`. Stamps change
the screen and `VF`, and read neither but the pixels they flip. So each of a list of stamps covers
the pixels that it would cover at once, and a pixel is flipped as often as stamps cover it:
`Stamp.exists_stamped` is one stamp and `exists_stamps` the induction over a list. Counting does
not depend on the order, and two equal stamps count for nothing.
-/

namespace Chip8

open Screen (Column Row)

/-- An `Annn` and a `Dxyn` with a sprite that is all in memory. -/
structure Stamp where
  aim : Opcode
  draw : Opcode
  aim_family : aim.family = 0xA
  draw_family : draw.family = 0xD
  x_ne : draw.x ≠ 0xF
  y_ne : draw.y ≠ 0xF
  fits : aim.addr.toNat + draw.n.toNat ≤ memorySize

namespace Stamp

variable {κ ρ : Type} {m t u : Machine κ ρ} {s : Stamp} {X : Column} {Y : Row}

def opcodes (s : Stamp) : List Opcode := [s.aim, s.draw]

/-- Some set bit of the sprite lies on the pixel. -/
def Covers (s : Stamp) (m : Machine κ ρ) (X : Column) (Y : Row) : Prop :=
  { m with index := s.aim.addr }.Covers s.draw X Y

instance : Decidable (s.Covers m X Y) :=
  inferInstanceAs (Decidable ({ m with index := s.aim.addr }.Covers s.draw X Y))

/-- Two machines have all in common that decides what stamps cover. -/
structure Alike (m t : Machine κ ρ) : Prop where
  registers : ∀ r, r ≠ 0xF → t.v r = m.v r
  memory : t.memory = m.memory

theorem covers_congr (h : Alike m t) : s.Covers t X Y ↔ s.Covers m X Y := by
  simp only [Covers, Machine.Covers, h.memory, h.registers _ s.x_ne, h.registers _ s.y_ne]

variable [Keypad κ] [ByteSource ρ]

structure Stamped (s : Stamp) (m t : Machine κ ρ) : Prop where
  executes : Machine.executeAll s.opcodes m = (.ok (), t)
  pixels : ∀ X Y, t.screen.get X Y = (m.screen.get X Y ^^ decide (s.Covers m X Y))
  flag : t.v 0xF = if ∃ X Y, s.Covers m X Y ∧ m.screen.get X Y = true then 1 else 0
  alike : Alike m t

theorem exists_stamped (s : Stamp) (m : Machine κ ρ) : ∃ t, s.Stamped m t := by
  let aimed := m.executed (.loadIndex s.aim.addr)
  have haim : Machine.execute s.aim m = (.ok (), aimed) :=
    Machine.execute_of_row (.loadIndex s.aim_family) rfl
  have hdraw : Machine.execute s.draw aimed =
      (.ok (), aimed.executed (.draw s.draw.x s.draw.y s.draw.n)) :=
    Machine.execute_of_row (.draw s.draw_family) (Machine.readFault?_of_le s.fits)
  exact ⟨_, {
    executes := Machine.executeAll_pair haim hdraw
    pixels := Machine.get_executed_draw aimed s.draw
    flag := Machine.flag_executed_draw aimed s.draw
    alike := {
      registers := fun r hr => (Machine.v_executed_draw aimed s.draw r).trans (if_neg hr)
      memory := rfl } }⟩

end Stamp

namespace Machine

variable {κ ρ : Type} [Keypad κ] [ByteSource ρ] {m t : Machine κ ρ}

/-- How often stamps flip a pixel, all from the same machine. -/
def flips (m : Machine κ ρ) (stamps : List Stamp) (X : Column) (Y : Row) : Nat :=
  stamps.countP fun s => s.Covers m X Y

omit [Keypad κ] [ByteSource ρ] in
theorem flips_congr (h : Stamp.Alike m t) (stamps : List Stamp) (X : Column) (Y : Row) :
    t.flips stamps X Y = m.flips stamps X Y :=
  List.countP_congr fun s _ => by simp only [decide_eq_true_eq, Stamp.covers_congr h]

/-- Stamps always succeed, and flip every pixel as often as they cover it. -/
theorem exists_stamps (m : Machine κ ρ) (stamps : List Stamp) :
    ∃ t, executeAll (stamps.flatMap Stamp.opcodes) m = (.ok (), t) ∧
      ∀ X Y, t.screen.get X Y = (m.screen.get X Y ^^ (m.flips stamps X Y).bodd) := by
  induction stamps generalizing m with
  | nil => exact ⟨m, rfl, by simp [flips]⟩
  | cons s stamps ih =>
    obtain ⟨t, ht⟩ := s.exists_stamped m
    obtain ⟨u, hu, hpixels⟩ := ih t
    refine ⟨u, ?_, fun X Y => ?_⟩
    · rw [List.flatMap_cons, executeAll_append ht.executes, hu]
    · rw [hpixels, ht.pixels, flips_congr ht.alike, flips, flips, List.countP_cons]
      by_cases hs : s.Covers m X Y
      · simp [hs]
      · simp [hs]

/-- Stamps that flip every pixel as often, up to pairs of flips, lead to the same screen. -/
theorem exists_stamps_of_parity {stamps others : List Stamp}
    (ht : ∀ X Y, t.screen.get X Y = (m.screen.get X Y ^^ (m.flips stamps X Y).bodd))
    (h : ∀ X Y, (m.flips others X Y).bodd = (m.flips stamps X Y).bodd) :
    ∃ u, executeAll (others.flatMap Stamp.opcodes) m = (.ok (), u) ∧ u.screen = t.screen := by
  obtain ⟨u, hu, hpixels⟩ := exists_stamps m others
  exact ⟨u, hu, Screen.ext_get fun X Y => by rw [hpixels, h, ht]⟩

omit [Keypad κ] [ByteSource ρ] in
theorem bodd_flips_of_pair (m : Machine κ ρ) (s : Stamp) (before between behind : List Stamp)
    (X : Column) (Y : Row) :
    (m.flips (before ++ between ++ behind) X Y).bodd =
      (m.flips (before ++ s :: between ++ s :: behind) X Y).bodd := by
  simp only [flips, List.countP_append, List.countP_cons, Nat.bodd_add]
  by_cases hs : s.Covers m X Y
  · simp [hs]
  · simp [hs]

/-- Stamps may be executed in any order, and two equal ones may be left out, wherever they stand.
Of two equal stamps in a row the first collides where its sprite lies on lit pixels, and the second
where it lay on pixels that were not. -/
theorem stamps_commute_and_cancel (m : Machine κ ρ) :
    (∀ stamps : List Stamp, ∃ t, executeAll (stamps.flatMap Stamp.opcodes) m = (.ok (), t) ∧
      (∀ others, stamps.Perm others →
        ∃ u, executeAll (others.flatMap Stamp.opcodes) m = (.ok (), u) ∧ u.screen = t.screen) ∧
      (∀ s before between behind, stamps = before ++ s :: between ++ s :: behind →
        ∃ u, executeAll ((before ++ between ++ behind).flatMap Stamp.opcodes) m = (.ok (), u) ∧
          u.screen = t.screen)) ∧
    ∀ s : Stamp, ∃ t u, executeAll s.opcodes m = (.ok (), t) ∧
      executeAll s.opcodes t = (.ok (), u) ∧ u.screen = m.screen ∧
      t.v 0xF = (if ∃ X Y, s.Covers m X Y ∧ m.screen.get X Y = true then 1 else 0) ∧
      u.v 0xF = (if ∃ X Y, s.Covers m X Y ∧ m.screen.get X Y = false then 1 else 0) := by
  refine ⟨fun stamps => ?_, fun s => ?_⟩
  · obtain ⟨t, ht, hpixels⟩ := exists_stamps m stamps
    refine ⟨t, ht, fun others hperm => ?_, ?_⟩
    · refine exists_stamps_of_parity hpixels fun X Y => ?_
      rw [flips, flips, hperm.countP_eq]
    · rintro s before between behind rfl
      exact exists_stamps_of_parity hpixels (bodd_flips_of_pair m s before between behind)
  · obtain ⟨t, ht⟩ := s.exists_stamped m
    obtain ⟨u, hu⟩ := s.exists_stamped t
    refine ⟨t, u, ht.executes, hu.executes, Screen.ext_get fun X Y => ?_, ht.flag, ?_⟩
    · rw [hu.pixels, ht.pixels, decide_eq_decide.mpr (Stamp.covers_congr ht.alike), Bool.xor_assoc,
        Bool.xor_self, Bool.xor_false]
    · rw [hu.flag]
      refine if_congr ?_ rfl rfl
      refine exists_congr fun X => exists_congr fun Y => ?_
      rw [Stamp.covers_congr ht.alike]
      refine and_congr_right fun hcovers => ?_
      rw [ht.pixels, decide_eq_true hcovers, Bool.xor_true, Bool.not_eq_true']

/-- The glyphs of `0` and `1` over each other: with two of `0` only that of `1` is left. -/
theorem stamps_commute_and_cancel_glyphs :
    let zero : Stamp := ⟨0xA000, 0xD015, rfl, rfl, by decide, by decide, by decide⟩
    let one : Stamp := ⟨0xA005, 0xD015, rfl, rfl, by decide, by decide, by decide⟩
    let m := Machine.fresh HexPad.idle (WordCycle.ofList [])
    [zero, one, zero].Perm [one, zero, zero] ∧
    [zero, one, zero] = [] ++ zero :: [one] ++ zero :: [] ∧
    ∃ t u v, executeAll [0xA000, 0xD015, 0xA005, 0xD015, 0xA000, 0xD015] m = (.ok (), t) ∧
      executeAll [0xA005, 0xD015, 0xA000, 0xD015, 0xA000, 0xD015] m = (.ok (), u) ∧
      executeAll [0xA005, 0xD015] m = (.ok (), v) ∧
      u.screen = t.screen ∧ v.screen = t.screen := by
  intro zero one m
  have hperm : [zero, one, zero].Perm [one, zero, zero] := .swap one zero [zero]
  have hpair : [zero, one, zero] = [] ++ zero :: [one] ++ zero :: [] := rfl
  obtain ⟨t, ht, hcommute, hcancel⟩ := (stamps_commute_and_cancel m).1 [zero, one, zero]
  obtain ⟨u, hu, hscreen⟩ := hcommute _ hperm
  obtain ⟨v, hv, hscreen'⟩ := hcancel _ _ _ _ hpair
  exact ⟨hperm, hpair, t, u, v, ht, hu, hv, hscreen, hscreen'⟩

end Machine

end Chip8
