import Chip8.Proofs.Sequences

/-!
# Arithmetic with a flag

The five instructions that set `VF` read both operands, then write `VF`, then `Vx`. Read as
integers, the flag and the byte together are therefore the exact sum, difference, half or double of
what the operands were, whichever of the three registers are the same. With `x = F` the byte comes
last and the flag is lost.
-/

namespace Chip8

/-! ## Bytes as integers

For each operation the byte it gives, and the flag and the byte together.
-/

section
variable (a b : UInt8)

theorem toNat_add_byte : ((a + b).toNat : Int) = (a.toNat + b.toNat) % 256 := by
  rw [UInt8.toNat_add]
  omega

theorem carry_add : 256 * (if decide (a.toNat + b.toNat > 255) then (1 : Int) else 0) +
    (a + b).toNat = a.toNat + b.toNat := by
  have ha := a.toNat_lt
  have hb := b.toNat_lt
  rw [toNat_add_byte]
  simp only [decide_eq_true_eq]
  omega

theorem toNat_sub_byte : ((a - b).toNat : Int) = (a.toNat - b.toNat) % 256 := by
  have hb := b.toNat_lt
  rw [UInt8.toNat_sub]
  omega

theorem borrow_sub : ((a - b).toNat : Int) =
    a.toNat - b.toNat + 256 * (if (a.toNat : Int) < b.toNat then 1 else 0) := by
  have ha := a.toNat_lt
  have hb := b.toNat_lt
  rw [toNat_sub_byte]
  omega

theorem flag_gt : (if decide (a > b) then (1 : Int) else 0) =
    if (a.toNat : Int) > b.toNat then 1 else 0 := by
  simp only [decide_eq_true_eq, gt_iff_lt, UInt8.lt_iff_toNat_lt, Int.ofNat_lt]

theorem toNat_half : (a >>> 1).toNat = a.toNat / 2 := by
  simp [UInt8.toNat_shiftRight, Nat.shiftRight_eq_div_pow]

theorem half_bit : 2 * (a >>> 1).toNat + (if a.toNat.testBit 0 then (1 : Int) else 0) =
    a.toNat := by
  rw [toNat_half, Nat.testBit_zero]
  simp only [decide_eq_true_eq]
  omega

theorem toNat_double : (a <<< 1).toNat = 2 * a.toNat % 256 := by
  simp [UInt8.toNat_shiftLeft, Nat.shiftLeft_eq, Nat.mul_comm]

theorem bit_double : 256 * (if a.toNat.testBit 7 then (1 : Int) else 0) + (a <<< 1).toNat =
    2 * a.toNat := by
  have ha := a.toNat_lt
  rw [toNat_double, Nat.testBit_eq_decide_div_mod_eq]
  simp only [decide_eq_true_eq]
  omega

end

namespace Machine

variable {κ ρ : Type} [Keypad κ] [ByteSource ρ] {m : Machine κ ρ} {w : Opcode} {i : Instruction}

/-! ## Flag and byte -/

/-- What an opcode leaves in `VF` and `Vx`, as integers: a bit and a byte that are related by `P`,
or with `x = F` only the byte. -/
def Computes (m : Machine κ ρ) (w : Opcode) (byte : Int) (P : Int → Int → Prop) : Prop :=
  ∃ t, execute w m = (.ok (), t) ∧
    if w.x = 0xF then ((t.v 0xF).toNat : Int) = byte
    else (t.v 0xF = 0 ∨ t.v 0xF = 1) ∧ P (t.v 0xF).toNat (t.v w.x).toNat

theorem Computes.of_flagged {on : Bool} {result : UInt8} {byte : Int} {P : Int → Int → Prop}
    (hrow : w.Row i) (hf : m.fault? i = none)
    (hregisters : m.registersAfter i = m.flagged w.x on result)
    (hbyte : (result.toNat : Int) = byte) (hP : P (if on then 1 else 0) result.toNat) :
    m.Computes w byte P := by
  have hx : (m.executed i).v w.x = result :=
    (congrArg (·.cell w.x) hregisters).trans (Registers.cell_put_self result w.toNat_x_lt)
  refine ⟨_, execute_of_row hrow hf, ?_⟩
  split
  · rename_i hxF
    rw [← hxF, hx]
    exact hbyte
  · rename_i hxF
    have hflag : (m.executed i).v 0xF = if on then 1 else 0 :=
      calc (m.executed i).v 0xF
        _ = (m.flagged w.x on result).cell 0xF := congrArg (·.cell 0xF) hregisters
        _ = (m.registers.setFlag on).cell 0xF :=
          Registers.cell_put_of_ne w.toNat_x_lt (Ne.symm hxF)
        _ = if on then 1 else 0 := (Registers.cell_setFlag on 0xF).trans (if_pos rfl)
    rw [hx, hflag]
    cases on with
    | true => exact ⟨.inr rfl, hP⟩
    | false => exact ⟨.inl rfl, hP⟩

/-! ## The instructions -/

/-- `7xkk` and `8xy0` to `8xy3` write `Vx` and no other register. -/
theorem execute_unflagged (h : w.family = 0x7 ∨ w.family = 0x8 ∧ w.n ∈ [0x0, 0x1, 0x2, 0x3]) :
    ∃ t, execute w m = (.ok (), t) ∧ ∀ r, r ≠ w.x → t.v r = m.v r := by
  obtain ⟨i, b, hrow, hf, hregisters⟩ : ∃ i b, w.Row i ∧ m.fault? i = none ∧
      m.registersAfter i = m.registers.put w.x b := by
    rcases h with hf | ⟨hf, hn⟩
    · exact ⟨_, _, .addByte hf, rfl, rfl⟩
    · simp only [List.mem_cons, List.not_mem_nil, or_false] at hn
      rcases hn with hn | hn | hn | hn
      · exact ⟨_, _, .move hf hn, rfl, rfl⟩
      · exact ⟨_, _, .or hf hn, rfl, rfl⟩
      · exact ⟨_, _, .and hf hn, rfl, rfl⟩
      · exact ⟨_, _, .xor hf hn, rfl, rfl⟩
  refine ⟨_, execute_of_row hrow hf, fun r hr => ?_⟩
  exact (congrArg (·.cell r) hregisters).trans (Registers.cell_put_of_ne w.toNat_x_lt hr)

/-- For all operand registers, the same or not and `VF` or not, `VF` and `Vx` hold what the exact
operation on the operands from before gives; the other arithmetic leaves `VF` alone. -/
theorem flag_and_byte_are_exact (m : Machine κ ρ) (w : Opcode) :
    let a : Int := (m.v w.x).toNat
    let b : Int := (m.v w.y).toNat
    (w.family = 0x8 →
      (w.n = 0x4 → m.Computes w ((a + b) % 256) fun vf vx => 256 * vf + vx = a + b) ∧
      (w.n = 0x5 → m.Computes w ((a - b) % 256) fun vf vx =>
        vx = a - b + 256 * (if a < b then 1 else 0) ∧ vf = if a > b then 1 else 0) ∧
      (w.n = 0x7 → m.Computes w ((b - a) % 256) fun vf vx =>
        vx = b - a + 256 * (if b < a then 1 else 0) ∧ vf = if b > a then 1 else 0) ∧
      (w.n = 0x6 → m.Computes w (a / 2) fun vf vx => 2 * vx + vf = a) ∧
      (w.n = 0xE → m.Computes w (2 * a % 256) fun vf vx => 256 * vf + vx = 2 * a)) ∧
    (w.family = 0x7 ∨ w.family = 0x8 ∧ w.n ∈ [0x0, 0x1, 0x2, 0x3] →
      ∃ t, execute w m = (.ok (), t) ∧ (w.x ≠ 0xF → t.v 0xF = m.v 0xF)) := by
  intro a b
  refine ⟨fun hf => ⟨fun hn => ?add, fun hn => ?sub, fun hn => ?subFrom, fun hn => ?shiftRight,
    fun hn => ?shiftLeft⟩, fun h => ?unflagged⟩
  case add => exact .of_flagged (.add hf hn) rfl rfl (toNat_add_byte _ _) (carry_add _ _)
  case sub =>
    exact .of_flagged (.sub hf hn) rfl rfl (toNat_sub_byte _ _) ⟨borrow_sub _ _, flag_gt _ _⟩
  case subFrom =>
    exact .of_flagged (.subFrom hf hn) rfl rfl (toNat_sub_byte _ _) ⟨borrow_sub _ _, flag_gt _ _⟩
  case shiftRight =>
    exact .of_flagged (.shiftRight hf hn) rfl rfl (congrArg Nat.cast (toNat_half _)) (half_bit _)
  case shiftLeft =>
    exact .of_flagged (.shiftLeft hf hn) rfl rfl (congrArg Nat.cast (toNat_double _)) (bit_double _)
  case unflagged =>
    obtain ⟨t, hok, hothers⟩ := execute_unflagged (m := m) h
    exact ⟨t, hok, fun hx => hothers 0xF (Ne.symm hx)⟩

/-- `81F4` adds the old `VF` and then sets it, `8F15` writes the byte over the borrow, and `71FF`
leaves the flag alone. -/
theorem flag_and_byte_are_exact_aliased :
    let m := { Machine.fresh HexPad.idle (WordCycle.ofList []) with
      registers := (Registers.zeros.put 1 200).put 0xF 100 }
    (Opcode.family 0x81F4 = 0x8 ∧ Opcode.n 0x81F4 = 0x4 ∧ ∃ t, execute 0x81F4 m = (.ok (), t) ∧
      256 * ((t.v 0xF).toNat : Int) + (t.v 1).toNat = 200 + 100) ∧
    (Opcode.family 0x8F15 = 0x8 ∧ Opcode.n 0x8F15 = 0x5 ∧ ∃ t, execute 0x8F15 m = (.ok (), t) ∧
      ((t.v 0xF).toNat : Int) = 156) ∧
    Opcode.family 0x71FF = 0x7 ∧ ∃ t, execute 0x71FF m = (.ok (), t) ∧ t.v 0xF = 100 := by
  intro m
  obtain ⟨t, hadd, hsum⟩ := ((flag_and_byte_are_exact m 0x81F4).1 rfl).1 rfl
  obtain ⟨u, hsub, hbyte⟩ := ((flag_and_byte_are_exact m 0x8F15).1 rfl).2.1 rfl
  obtain ⟨s, hok, hflag⟩ := (flag_and_byte_are_exact m 0x71FF).2 (.inl rfl)
  exact ⟨⟨rfl, rfl, t, hadd, hsum.2⟩, ⟨rfl, rfl, u, hsub, hbyte⟩, rfl, s, hok, hflag (by decide)⟩

end Machine

end Chip8
