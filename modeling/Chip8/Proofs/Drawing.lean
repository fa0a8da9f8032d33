import Chip8.Proofs.Invariant
import Chip8.Proofs.Sprites
import Chip8.Proofs.Table

/-!
# Drawing

What `Dxyn` does to the machine: it flips the pixels that the sprite at the index covers, sets the
flag to whether a lit one went out, makes a frame due and passes on. Both coordinates are read
before the flag is written, so that `VF` may be either of them.
-/

namespace Chip8

namespace Machine

open Screen (Column Row)

variable {κ ρ : Type} {m : Machine κ ρ} {w : Opcode} {X : Column} {Y : Row}

/-- Some set bit of the sprite at the index lies on the pixel, for a `Dxyn` with these operands. -/
def Covers (m : Machine κ ρ) (w : Opcode) (X : Column) (Y : Row) : Prop :=
  ∃ r < w.n.toNat, ∃ c < 8, Y.val = ((m.v w.y).toNat + r) % displayHeight ∧
    X.val = ((m.v w.x).toNat + c) % displayWidth ∧
    (m.memory.byte (m.index.toNat + r)).toNat.testBit (7 - c) = true

instance : Decidable (m.Covers w X Y) :=
  inferInstanceAs (Decidable (∃ r < w.n.toNat, ∃ c < 8, _ ∧ _ ∧ _))

/-- The rows of the sprite that a `Dxyn` draws. -/
def sprite (m : Machine κ ρ) (w : Opcode) : List UInt8 :=
  m.memory.window m.index.toNat w.n.toNat

theorem length_sprite (m : Machine κ ρ) (w : Opcode) : (m.sprite w).length = w.n.toNat :=
  m.memory.length_window w.n.toNat

theorem length_sprite_le (m : Machine κ ρ) (w : Opcode) :
    (m.sprite w).length ≤ displayHeight := by
  rw [length_sprite]
  exact Nat.le_trans (Nat.le_of_lt w.toNat_n_lt) (by decide)

theorem covers_iff : m.Covers w X Y ↔
    (X, Y) ∈ Screen.targets (m.v w.x).toNat (m.v w.y).toNat (m.sprite w) := by
  rw [Screen.mem_targets, length_sprite]
  refine exists_congr fun r => and_congr_right fun hr => ?_
  simp only [Sprite.bit, sprite, Memory.getD_window hr]

variable [Keypad κ] [ByteSource ρ]

theorem screen_executed_draw (m : Machine κ ρ) (w : Opcode) :
    (m.executed (.draw w.x w.y w.n)).screen =
      (m.screen.draw (m.v w.x).toNat (m.v w.y).toNat (m.sprite w)).2 := rfl

theorem v_executed_draw (m : Machine κ ρ) (w : Opcode) (r : UInt8) :
    (m.executed (.draw w.x w.y w.n)).v r =
      if r = 0xF then
        if (m.screen.draw (m.v w.x).toNat (m.v w.y).toNat (m.sprite w)).1 then 1 else 0
      else m.v r :=
  Registers.cell_setFlag _ r

theorem get_executed_draw (m : Machine κ ρ) (w : Opcode) (X : Column) (Y : Row) :
    (m.executed (.draw w.x w.y w.n)).screen.get X Y =
      (m.screen.get X Y ^^ decide (m.Covers w X Y)) := by
  have : Decidable ((X, Y) ∈ Screen.targets _ _ (m.sprite w)) := decidable_of_iff _ covers_iff
  rw [decide_eq_decide.mpr covers_iff]
  exact Screen.get_draw (m.length_sprite_le w) m.screen X Y

/-- The flag tells whether some set bit of the sprite lies on a lit pixel. -/
theorem flag_executed_draw (m : Machine κ ρ) (w : Opcode) :
    (m.executed (.draw w.x w.y w.n)).v 0xF =
      if ∃ X Y, m.Covers w X Y ∧ m.screen.get X Y = true then 1 else 0 := by
  rw [v_executed_draw, if_pos rfl]
  refine if_congr ?_ rfl rfl
  rw [Screen.hit_draw_iff_mem (m.length_sprite_le w), Prod.exists]
  exact exists_congr fun X => exists_congr fun Y => and_congr_left fun _ => covers_iff.symm

/-- If the sprite is all in memory, drawing it succeeds. Each pixel is flipped if a set bit of the
sprite lies on it, where both axes wrap; `VF` tells whether a lit pixel went out. -/
theorem draw_flips_covered (hw : w.family = 0xD)
    (hend : m.index.toNat + w.n.toNat ≤ memorySize) :
    ∃ t, execute w m = (.ok (), t) ∧
      (∀ X Y, t.screen.get X Y = (m.screen.get X Y ^^ decide (m.Covers w X Y))) ∧
      t.v 0xF =
        (if ∃ X Y, m.screen.get X Y = true ∧ t.screen.get X Y = false then 1 else 0) ∧
      (∀ r, r ≠ 0xF → t.v r = m.v r) ∧
      t = { m with
        registers := t.registers, screen := t.screen, redraw := true, pc := m.pc + 2 } := by
  have hd : Instruction.decode? w = some (.draw w.x w.y w.n) :=
    Instruction.decode?_of_row (.draw hw)
  have hexecute : execute w m = (.ok (), m.executed (.draw w.x w.y w.n)) :=
    execute_ok_iff.mpr ⟨_, hd, readFault?_of_le hend, rfl⟩
  have hlength := m.length_sprite_le w
  refine ⟨_, hexecute, fun X Y => ?_, ?_, fun r hr => ?_, rfl⟩
  · have : Decidable ((X, Y) ∈ Screen.targets _ _ (m.sprite w)) := decidable_of_iff _ covers_iff
    rw [decide_eq_decide.mpr covers_iff]
    exact Screen.get_draw hlength m.screen X Y
  · refine (Registers.cell_setFlag _ 0xF).trans ?_
    rw [if_pos rfl]
    exact if_congr (Screen.hit_draw hlength m.screen) rfl rfl
  · exact (Registers.cell_setFlag _ r).trans (if_neg hr)

/-- The glyph of `0` drawn on a blank screen, with both coordinates in `VF`: its third column is
the first of the screen. -/
theorem draw_flips_covered_wrapped :
    let m := { Machine.fresh HexPad.idle (WordCycle.ofList []) with
      registers := Registers.zeros.put 0xF 62 }
    Opcode.family 0xDFF5 = 0xD ∧ m.index.toNat + (Opcode.n 0xDFF5).toNat ≤ memorySize ∧
      ∃ t, execute 0xDFF5 m = (.ok (), t) ∧ t.screen.get 0 30 = true ∧ t.v 0xF = 0 ∧
        t.v 1 = m.v 1 ∧ t.redraw = true ∧ t.pc = 0x202 := by
  intro m
  have hend : m.index.toNat + (Opcode.n 0xDFF5).toNat ≤ memorySize := by decide
  obtain ⟨t, hok, hpixels, hflag, hothers, ht⟩ := draw_flips_covered (w := 0xDFF5) rfl hend
  have hblank : ∀ X Y, m.screen.get X Y = false := Screen.get_blank
  have hv : m.v 0xF = 62 := Registers.cell_put_self 62 (by decide)
  have hbyte : m.memory.byte (m.index.toNat + 0) = 0xF0 := byte_fresh (by decide)
  have hcovers : m.Covers 0xDFF5 0 30 := by
    refine ⟨0, by decide, 2, by decide, ?_, ?_, ?_⟩
    · show 30 = ((m.v 0xF).toNat + 0) % displayHeight
      rw [hv]
      rfl
    · show 0 = ((m.v 0xF).toNat + 2) % displayWidth
      rw [hv]
      rfl
    · rw [hbyte]
      decide
  refine ⟨rfl, hend, t, hok, ?_, ?_, hothers 1 (by decide), ?_, ?_⟩
  · rw [hpixels, hblank, decide_eq_true hcovers]
    rfl
  · rw [hflag, if_neg]
    rintro ⟨X, Y, hlit, -⟩
    cases (hblank X Y).symm.trans hlit
  · rw [ht]
  · rw [ht]
    rfl

end Machine

end Chip8
