import Chip8.Proofs.Footprint
import Chip8.Proofs.Persistence
import Chip8.Proofs.Sequences

/-!
# Registers in memory

`Fx55` puts `V0` to `Vx` at the index and `Fx65` takes them back; the digits that `Fx33` stores are
taken by `F265`. The two blocks are checked against different bounds, but inside the program area
both succeed and are the same bytes. What is stored stays there through every run that does not
write to it (`Sparing`), however long and whether its opcodes are executed directly or by steps.
-/

namespace Chip8

/-- Hundreds, tens and ones are digits, and make up the byte. -/
theorem decimal_of_byte (b : UInt8) : b / 100 ≤ 9 ∧ b / 10 % 10 ≤ 9 ∧ b % 10 ≤ 9 ∧
    100 * (b / 100).toNat + 10 * (b / 10 % 10).toNat + (b % 10).toNat = b.toNat := by
  have hb := b.toNat_lt
  simp only [UInt8.le_iff_toNat_le, UInt8.toNat_div, UInt8.toNat_mod, UInt8.reduceToNat]
  omega

namespace Machine

variable {κ ρ : Type} [Keypad κ] [ByteSource ρ] {m t u : Machine κ ρ} {w l : Opcode}
  {a lo hi : Nat}

/-! ## Blocks -/

theorem execute_storeRegisters (hf : w.family = 0xF) (hk : w.kk = 0x55)
    (hstart : programStart ≤ m.index.toNat) (hend : m.index.toNat + w.x.toNat ≤ programEnd) :
    ∃ t, execute w m = (.ok (), t) ∧ t = { m with memory := t.memory, pc := m.pc + 2 } ∧
      (∀ r ≤ w.x, t.memory.byte (m.index.toNat + r.toNat) = m.v r) ∧
      ∀ c, c < m.index.toNat ∨ m.index.toNat + w.x.toNat < c →
        t.memory.byte c = m.memory.byte c := by
  have hlength := Registers.length_take (v := m.registers) w.toNat_x_lt
  have hlast : m.index.toNat + w.x.toNat < memorySize := Nat.lt_succ_of_le hend
  refine ⟨_, execute_of_row (.storeRegisters hf hk) (writeFault?_of_le hstart hlast), rfl, ?_, ?_⟩
  · intro r hr
    have hr := UInt8.le_iff_toNat_le.mp hr
    calc (m.memoryAfter (.storeRegisters w.x)).byte (m.index.toNat + r.toNat)
      _ = (m.registers.toList.take (w.x.toNat + 1))[r.toNat]?.getD 0 :=
        Memory.byte_overlay_of_inside (by omega) (by omega)
      _ = m.v r := by
        rw [List.getElem?_take_of_lt (by omega), Registers.toList, Vector.getElem?_toList]
        rfl
  · exact fun c hc => Memory.byte_overlay_of_outside (by omega)

theorem execute_loadRegisters (hf : l.family = 0xF) (hk : l.kk = 0x65)
    (hend : m.index.toNat + l.x.toNat ≤ programEnd) :
    ∃ t, execute l m = (.ok (), t) ∧ t = { m with registers := t.registers, pc := m.pc + 2 } ∧
      (∀ r ≤ l.x, t.v r = m.memory.byte (m.index.toNat + r.toNat)) ∧
      ∀ r, l.x < r → t.v r = m.v r := by
  have hlength := m.memory.length_window (a := m.index.toNat) (l.x.toNat + 1)
  have hlast : m.index.toNat + l.x.toNat < memorySize := Nat.lt_succ_of_le hend
  refine ⟨_, execute_of_row (.loadRegisters hf hk) (readFault?_of_le hlast), rfl, ?_, ?_⟩
  · intro r hr
    have hr := UInt8.le_iff_toNat_le.mp hr
    have hx := l.toNat_x_lt
    have hinside := getElem?_overlay_of_inside m.registers.cells 0
      (m.memory.window m.index.toNat (l.x.toNat + 1)) (j := r.toNat) (by omega) (by omega)
    rw [Nat.zero_add] at hinside
    calc (m.registersAfter (.loadRegisters l.x)).cell r
      _ = (m.memory.window m.index.toNat (l.x.toNat + 1)).getD r.toNat 0 :=
        (congrArg (·.getD 0) hinside).trans List.getD_eq_getElem?_getD.symm
      _ = m.memory.byte (m.index.toNat + r.toNat) := Memory.getD_window (by omega)
  · intro r hr
    have hr := UInt8.lt_iff_toNat_lt.mp hr
    have houtside := getElem?_overlay_of_outside m.registers.cells 0
      (m.memory.window m.index.toNat (l.x.toNat + 1)) (c := r.toNat) (.inr (by omega))
    exact congrArg (·.getD 0) houtside

theorem execute_storeDecimal (hf : w.family = 0xF) (hk : w.kk = 0x33)
    (hstart : programStart ≤ m.index.toNat) (hend : m.index.toNat + 2 ≤ programEnd) :
    ∃ t, execute w m = (.ok (), t) ∧ t = { m with memory := t.memory, pc := m.pc + 2 } ∧
      ∀ j < 3, t.memory.byte (m.index.toNat + j) = (decimalDigits (m.v w.x))[j]?.getD 0 := by
  have hlast : m.index.toNat + 2 < memorySize := Nat.lt_succ_of_le hend
  refine ⟨_, execute_of_row (.storeDecimal hf hk) (writeFault?_of_le hstart hlast), rfl, ?_⟩
  exact fun j hj => Memory.byte_overlay_of_inside hj (by omega)

/-! ## Runs that spare a block -/

/-- `w` writes to none of the addresses from `lo` to `hi`. -/
def Spares (lo hi : Nat) (m : Machine κ ρ) (w : Opcode) : Prop :=
  ∀ a, lo ≤ a → a ≤ hi → ¬m.WritesByte w a

/-- Opcodes succeed one after another, executed directly or by steps, and all of them spare the
addresses from `lo` to `hi`. Between them timers run, frames are taken and keys are pressed. -/
inductive Sparing (lo hi : Nat) : Machine κ ρ → Machine κ ρ → Prop
  | refl (m : Machine κ ρ) : Sparing lo hi m m
  | execute {m t u : Machine κ ρ} {w : Opcode} : execute w m = (.ok (), t) → Spares lo hi m w →
      Sparing lo hi t u → Sparing lo hi m u
  | step {m t u : Machine κ ρ} {mode : Mode} : step m = (.ok mode, t) →
      (∀ w, m.Executes w → Spares lo hi m w) → Sparing lo hi t u → Sparing lo hi m u
  | idle {m t u : Machine κ ρ} : m.Idled t → Sparing lo hi t u → Sparing lo hi m u

omit [Keypad κ] [ByteSource ρ] in
theorem spares_of_family_ne (h : w.family ≠ 0xF) : Spares lo hi m w := by
  rintro a - - ⟨count, ⟨hf, -⟩, -⟩
  exact h hf

theorem byte_of_execute (h : execute w m = (.ok (), t)) (ha : ¬m.WritesByte w a) :
    t.memory.byte a = m.memory.byte a := by
  obtain ⟨i, hd, -, rfl⟩ := execute_ok_iff.mp h
  exact byte_of_row (Instruction.row_of_decode? hd) ha

theorem byte_of_step (h : ∀ w, m.Executes w → ¬m.WritesByte w a) :
    (step m).2.memory.byte a = m.memory.byte a := by
  cases hm : m.mode with
  | awaitingKey x =>
    obtain ⟨registers, pc, mode, keypad, hs, -⟩ := step_awaiting_frame hm
    rw [hs]
  | running =>
    rcases step_cases hm with ⟨-, e, hs⟩ | ⟨i, hp, -, -, hs⟩
    · rw [hs]
    · obtain ⟨w, hw, hd⟩ := performed?_eq_some_iff.mp hp
      rw [hs]
      exact byte_of_row (Instruction.row_of_decode? hd) (h w hw)

theorem Sparing.byte (h : Sparing lo hi m u) (hlo : lo ≤ a) (hhi : a ≤ hi) :
    u.memory.byte a = m.memory.byte a := by
  induction h with
  | refl => rfl
  | execute hok hw _ ih => exact ih.trans (byte_of_execute hok (hw a hlo hhi))
  | step hok hw _ ih =>
    have hstep := byte_of_step fun w hexec => hw w hexec a hlo hhi
    rw [hok] at hstep
    exact ih.trans hstep
  | idle hidle _ ih =>
    obtain ⟨delay, sound, redraw, keypad, rfl⟩ := hidle
    exact ih

/-! ## Round trips -/

theorem load_then_store (hl : l.family = 0xF) (hload : l.kk = 0x65) (hw : w.family = 0xF)
    (hstore : w.kk = 0x55) (hx : w.x = l.x) (hstart : programStart ≤ m.index.toNat)
    (hend : m.index.toNat + l.x.toNat ≤ programEnd) :
    ∃ u, executeAll [l, w] m = (.ok (), u) ∧ u.memory = m.memory := by
  obtain ⟨t, hok, ht, hloaded, -⟩ := execute_loadRegisters hl hload hend
  have hindex : t.index = m.index := by rw [ht]
  have hmemory : t.memory = m.memory := by rw [ht]
  obtain ⟨u, hok', -, hstored, hothers⟩ :=
    execute_storeRegisters (m := t) hw hstore (hindex ▸ hstart) (hindex ▸ hx ▸ hend)
  rw [hindex, hmemory, hx] at hothers
  rw [hindex, hx] at hstored
  refine ⟨u, executeAll_pair hok hok', Memory.ext_byte fun c => ?_⟩
  -- Inside the block the store puts back what the load read there.
  by_cases hc : c < m.index.toNat ∨ m.index.toNat + l.x.toNat < c
  · exact hothers c hc
  · obtain ⟨j, rfl⟩ : ∃ j, c = m.index.toNat + j := ⟨c - m.index.toNat, by omega⟩
    have hx' := l.toNat_x_lt
    have hj : j < UInt8.size := Nat.lt_trans (show j < registerCount by omega) (by decide)
    obtain ⟨r, rfl⟩ : ∃ r : UInt8, j = r.toNat :=
      ⟨UInt8.ofNat j, (UInt8.toNat_ofNat_of_lt' hj).symm⟩
    have hr : r ≤ l.x := UInt8.le_iff_toNat_le.mpr (by omega)
    rw [hstored r hr, hloaded r hr]

theorem store_then_load_decimal (hf : w.family = 0xF) (hk : w.kk = 0x33)
    (hstart : programStart ≤ m.index.toNat) (hend : m.index.toNat + 2 ≤ programEnd) :
    ∃ u, executeAll [w, 0xF265] m = (.ok (), u) ∧ u.v 0 ≤ 9 ∧ u.v 1 ≤ 9 ∧ u.v 2 ≤ 9 ∧
      100 * (u.v 0).toNat + 10 * (u.v 1).toNat + (u.v 2).toNat = (m.v w.x).toNat := by
  obtain ⟨t, hok, ht, hdigits⟩ := execute_storeDecimal hf hk hstart hend
  have hindex : t.index = m.index := by rw [ht]
  obtain ⟨u, hok', -, hloaded, -⟩ :=
    execute_loadRegisters (m := t) (l := 0xF265) rfl rfl (hindex ▸ hend)
  rw [hindex] at hloaded
  have hhundreds : u.v 0 = m.v w.x / 100 := (hloaded 0 (by decide)).trans (hdigits 0 (by decide))
  have htens : u.v 1 = m.v w.x / 10 % 10 := (hloaded 1 (by decide)).trans (hdigits 1 (by decide))
  have hones : u.v 2 = m.v w.x % 10 := (hloaded 2 (by decide)).trans (hdigits 2 (by decide))
  refine ⟨u, executeAll_pair hok hok', ?_⟩
  rw [hhundreds, htens, hones]
  exact decimal_of_byte (m.v w.x)

/-- Stored registers are loaded back after any run that spares them, all or the first of them; a
store right behind a load leaves memory as it was; and the digits of a register make up its value,
also when they are loaded over it. -/
theorem register_blocks_round_trip (m : Machine κ ρ) (hstart : programStart ≤ m.index.toNat) :
    (∀ w : Opcode, w.family = 0xF → w.kk = 0x55 → m.index.toNat + w.x.toNat ≤ programEnd →
      ∃ t, execute w m = (.ok (), t) ∧ t = { m with memory := t.memory, pc := m.pc + 2 } ∧
        (∀ r ≤ w.x, t.memory.byte (m.index.toNat + r.toNat) = m.v r) ∧
        (∀ c, c < m.index.toNat ∨ m.index.toNat + w.x.toNat < c →
          t.memory.byte c = m.memory.byte c) ∧
        ∀ u, Sparing m.index.toNat (m.index.toNat + w.x.toNat) t u → u.index = m.index →
          ∀ l : Opcode, l.family = 0xF → l.kk = 0x65 → l.x ≤ w.x →
            ∃ s, execute l u = (.ok (), s) ∧
              s = { u with registers := s.registers, pc := u.pc + 2 } ∧
              (∀ r ≤ l.x, s.v r = m.v r) ∧ ∀ r, l.x < r → s.v r = u.v r) ∧
    (∀ l w : Opcode, l.family = 0xF → l.kk = 0x65 → w.family = 0xF → w.kk = 0x55 → w.x = l.x →
      m.index.toNat + l.x.toNat ≤ programEnd →
      ∃ u, executeAll [l, w] m = (.ok (), u) ∧ u.memory = m.memory) ∧
    ∀ w : Opcode, w.family = 0xF → w.kk = 0x33 → m.index.toNat + 2 ≤ programEnd →
      ∃ u, executeAll [w, 0xF265] m = (.ok (), u) ∧ u.v 0 ≤ 9 ∧ u.v 1 ≤ 9 ∧ u.v 2 ≤ 9 ∧
        100 * (u.v 0).toNat + 10 * (u.v 1).toNat + (u.v 2).toNat = (m.v w.x).toNat := by
  refine ⟨?_, fun l w hl hload hw hstore hx hend => ?_, fun w hf hk hend => ?_⟩
  · intro w hf hk hend
    obtain ⟨t, hok, ht, hstored, hothers⟩ := execute_storeRegisters hf hk hstart hend
    refine ⟨t, hok, ht, hstored, hothers, fun u hrun hindex l hl hload hle => ?_⟩
    have hlast := UInt8.le_iff_toNat_le.mp hle
    obtain ⟨s, hok', hs, hloaded, hrest⟩ :=
      execute_loadRegisters (m := u) hl hload (by rw [hindex]; omega)
    refine ⟨s, hok', hs, fun r hr => ?_, hrest⟩
    have hr' := UInt8.le_iff_toNat_le.mp hr
    calc s.v r
      _ = u.memory.byte (m.index.toNat + r.toNat) := by rw [hloaded r hr, hindex]
      _ = t.memory.byte (m.index.toNat + r.toNat) :=
        hrun.byte (Nat.le_add_right _ _) (by omega)
      _ = m.v r := hstored r (UInt8.le_iff_toNat_le.mpr (by omega))
  · exact load_then_store hl hload hw hstore hx hstart hend
  · exact store_then_load_decimal hf hk hstart hend

/-- Three registers at the end of memory: `V0` is overwritten and stored elsewhere before `F165`
loads two of them back. -/
theorem register_blocks_round_trip_at_end :
    let m := { Machine.fresh HexPad.idle (WordCycle.ofList []) with
      index := 0xFFD, registers := ((Registers.zeros.put 0 7).put 1 9).put 2 234 }
    (∃ t u s, execute 0xF255 m = (.ok (), t) ∧ t.memory.byte 0xFFF = 234 ∧
      executeAll [0x60AB, 0xA300, 0xF055, 0xAFFD] t = (.ok (), u) ∧ u.v 0 = 0xAB ∧
      execute 0xF165 u = (.ok (), s) ∧ s.v 0 = 7 ∧ s.v 1 = 9) ∧
    (∃ u, executeAll [0xF265, 0xF255] m = (.ok (), u) ∧ u.memory = m.memory) ∧
    ∃ u, executeAll [0xF233, 0xF265] m = (.ok (), u) ∧
      100 * (u.v 0).toNat + 10 * (u.v 1).toNat + (u.v 2).toNat = 234 := by
  intro m
  obtain ⟨stores, reload, digits⟩ := register_blocks_round_trip m (by decide)
  obtain ⟨t, hok, ht, hstored, -, hload⟩ := stores 0xF255 rfl rfl (by decide)
  let t1 := t.executed (.loadByte 0 0xAB)
  let t2 := t1.executed (.loadIndex 0x300)
  let t3 := t2.executed (.storeRegisters 0)
  let u := t3.executed (.loadIndex 0xFFD)
  have h1 : execute 0x60AB t = (.ok (), t1) := execute_of_row (.loadByte rfl) rfl
  have h2 : execute 0xA300 t1 = (.ok (), t2) := execute_of_row (.loadIndex rfl) rfl
  have h3 : execute 0xF055 t2 = (.ok (), t3) := execute_of_row (.storeRegisters rfl rfl) rfl
  have h4 : execute 0xAFFD t3 = (.ok (), u) := execute_of_row (.loadIndex rfl) rfl
  have helsewhere : Spares 0xFFD 0xFFF t2 0xF055 := by
    rintro a hlo - ⟨count, ⟨-, ⟨hk, -⟩ | ⟨-, rfl⟩⟩, -, hlt⟩
    · cases hk
    · exact absurd (Nat.lt_of_le_of_lt hlo hlt) (by decide : ¬0xFFD < 0x300 + 1)
  have hrun : Sparing 0xFFD 0xFFF t u :=
    .execute h1 (spares_of_family_ne (by decide)) <|
    .execute h2 (spares_of_family_ne (by decide)) <|
    .execute h3 helsewhere <|
    .execute h4 (spares_of_family_ne (by decide)) (.refl u)
  obtain ⟨s, hs, -, hloaded, -⟩ := hload u hrun rfl 0xF165 rfl rfl (by decide)
  refine ⟨⟨t, u, s, hok, hstored 2 (by decide), ?_, ?_, hs, hloaded 0 (by decide),
    hloaded 1 (by decide)⟩, reload 0xF265 0xF255 rfl rfl rfl rfl rfl (by decide), ?_⟩
  · rw [executeAll_cons h1, executeAll_cons h2, executeAll_cons h3, executeAll_cons h4,
      executeAll_nil]
  · exact Registers.cell_put_self 0xAB (by decide)
  · obtain ⟨v, hv, -, -, -, hsum⟩ := digits 0xF233 rfl rfl (by decide)
    exact ⟨v, hv, hsum⟩

end Machine

end Chip8
