import Chip8.Proofs.Effect

/-!
# Performing is the effect

`Machine.perform` writes piece by piece and may fault between two writes. For a well-formed
instruction no write comes before a fault: what can be refused is refused first, and the bytes of a
block that starts at or behind 0x200 and ends inside memory are all written.
-/

namespace Chip8.Machine

open Chip8.Action (bind_apply)

variable {κ ρ : Type} {m : Machine κ ρ} {x y : UInt8}

/-! ## Registers -/

theorem register_eq (hx : x.toNat < registerCount) : register x m = (.ok (m.v x), m) := by
  rw [register, Action.view_apply, Registers.get_eq hx]

theorem setRegister_eq (b : UInt8) (hx : x.toNat < registerCount) :
    setRegister x b m = (.ok (), { m with registers := m.registers.put x b }) :=
  Action.change_apply_ok (by rw [Registers.set_eq b hx]; rfl)

theorem combine_eq (f : UInt8 → UInt8 → UInt8) (hx : x.toNat < registerCount)
    (hy : y.toNat < registerCount) :
    combine x y f m =
      (.ok .next, { m with registers := m.registers.put x (f (m.v x) (m.v y)) }) := by
  simp only [combine, bind_apply, register_eq hx, register_eq hy, setRegister_eq _ hx,
    Action.pure_apply]

theorem combineFlagged_eq (flag : UInt8 → UInt8 → Bool) (f : UInt8 → UInt8 → UInt8)
    (hx : x.toNat < registerCount) (hy : y.toNat < registerCount) :
    combineFlagged x y flag f m =
      (.ok .next,
        { m with registers := m.flagged x (flag (m.v x) (m.v y)) (f (m.v x) (m.v y)) }) := by
  simp only [combineFlagged, bind_apply, register_eq hx, register_eq hy, setFlag,
    Action.modify_apply, setRegister_eq _ hx, Action.pure_apply, flagged]

/-! ## Blocks -/

theorem readFault?_of_le {count : Nat} (h : m.index.toNat + count ≤ memorySize) :
    m.readFault? count = none :=
  if_pos h

theorem readFault?_of_gt {count : Nat} (h : memorySize < m.index.toNat + count) :
    m.readFault? count = some (.addressOutOfRange (m.index.toNat + count - 1)) :=
  if_neg (Nat.not_le.mpr h)

theorem writeFault?_of_le {count : Nat} (hstart : programStart ≤ m.index.toNat)
    (hend : m.index.toNat + count ≤ memorySize) : m.writeFault? count = none := by
  rw [writeFault?, if_pos hend, if_pos hstart]

theorem block_of_le {count : Nat} (hpos : 0 < count) (h : m.index.toNat + count ≤ memorySize) :
    block count m = (.ok m.index.toNat, m) := by
  simp only [block, Action.view_apply]
  rw [if_pos (by omega)]

theorem block_of_gt {count : Nat} (h : memorySize < m.index.toNat + count) :
    block count m = (.error (.addressOutOfRange (m.index.toNat + count - 1)), m) := by
  simp only [block, Action.view_apply]
  rw [if_neg (by omega)]

theorem writeByte_eq {a : Nat} (b : UInt8) (h1 : programStart ≤ a) (h2 : a < memorySize) :
    writeByte a b m = (.ok (), { m with memory := ⟨m.memory.bytes.set a b h2⟩ }) :=
  Action.change_apply_ok (by rw [Memory.write_eq m.memory b h1 h2]; rfl)

theorem writeByte_below {a : Nat} (b : UInt8) (h : a < programStart) :
    writeByte a b m = (.error (.addressOutOfRange a), m) := by
  have hw : m.memory.write a b = .error (.addressOutOfRange a) :=
    Memory.write_eq_error_iff.mpr ⟨fun hin => by omega, rfl⟩
  exact Action.change_apply_error (by rw [hw]; rfl)

/-- A block that lies in the program area is written as a whole. -/
theorem writeBytes_eq {a : Nat} (bytes : List UInt8) (h1 : programStart ≤ a)
    (h2 : a + bytes.length ≤ memorySize) :
    writeBytes a bytes m =
      (.ok (), { m with memory := ⟨overlay m.memory.bytes a bytes⟩ }) := by
  induction bytes generalizing a m with
  | nil => rw [overlay_nil]; rfl
  | cons b bytes ih =>
    rw [List.length_cons] at h2
    have ha : a < memorySize := by omega
    rw [writeBytes, bind_apply, writeByte_eq b h1 ha]
    simp only
    rw [ih (by omega) (by omega), overlay_cons _ _ _ _ ha]

/-- A block that starts below the program area is refused at its first byte, wherever it ends. -/
theorem writeBytes_below {a : Nat} {bytes : List UInt8} (hne : bytes ≠ [])
    (h : a < programStart) : writeBytes a bytes m = (.error (.addressOutOfRange a), m) := by
  obtain ⟨b, rest, rfl⟩ := List.exists_cons_of_ne_nil hne
  rw [writeBytes, bind_apply, writeByte_below b h]

/-- A block is refused before its first byte is written, or written to its last. -/
theorem storeBlock_eq {bytes : List UInt8} (hne : bytes ≠ []) :
    (do
      writeBytes (← block bytes.length) bytes
      return .next : Action (Machine κ ρ) Flow) m =
      match m.writeFault? bytes.length with
      | some e => (.error e, m)
      | none => (.ok .next, { m with memory := ⟨overlay m.memory.bytes m.index.toNat bytes⟩ }) := by
  have hpos : 0 < bytes.length := List.length_pos_iff.mpr hne
  simp only [bind_apply, writeFault?]
  rcases Nat.lt_or_ge memorySize (m.index.toNat + bytes.length) with h | h
  · rw [block_of_gt h, if_neg (Nat.not_le.mpr h)]
  · rw [block_of_le hpos h, if_pos h]
    rcases Nat.lt_or_ge m.index.toNat programStart with hs | hs
    · simp only [writeBytes_below hne hs]
      rw [if_neg (Nat.not_le.mpr hs)]
    · simp only [writeBytes_eq bytes hs h]
      rw [if_pos hs]
      rfl

theorem loadRegisters_eq {a r count : Nat} (h1 : r + count ≤ registerCount)
    (h2 : a + count ≤ memorySize) :
    loadRegisters a r count m =
      (.ok (), { m with
        registers := ⟨overlay m.registers.cells r (m.memory.window a count)⟩ }) := by
  induction count generalizing a r m with
  | zero => rw [Memory.window, List.range_zero, List.map_nil, overlay_nil]; rfl
  | succ count ih =>
    have hr : r < registerCount := by omega
    have hr' : (UInt8.ofNat r).toNat = r := UInt8.toNat_ofNat_of_lt' (Nat.lt_trans hr (by decide))
    have hset : m.registers.put (UInt8.ofNat r) (m.memory.byte a) =
        ⟨m.registers.cells.set r (m.memory.byte a) hr⟩ := by
      have h := Registers.set_of_lt m.registers (m.memory.byte a) (x := UInt8.ofNat r)
        (by rw [hr']; exact hr)
      rw [Registers.set_eq _ (by rw [hr']; exact hr)] at h
      simpa [hr'] using Except.ok.inj h
    rw [loadRegisters, bind_apply, readByte, Action.view_apply,
      Memory.read_eq _ (show a < memorySize by omega)]
    simp only [bind_apply]
    rw [setRegister_eq _ (by rw [hr']; exact hr)]
    simp only
    rw [ih (by omega) (by omega), hset, Memory.window_succ, overlay_cons _ _ _ _ hr]

/-! ## Keys -/

theorem keyIn_eq (hx : x.toNat < registerCount) :
    keyIn x m = (if m.v x ≤ 0xF then .ok (m.v x) else .error (.noSuchKey (m.v x)), m) := by
  simp only [keyIn, bind_apply, register_eq hx]
  split
  · rfl
  · rfl

theorem isKeyDown_eq [Keypad κ] (f : Bool → Flow) (hx : x.toNat < registerCount) :
    (do return f (← isKeyDown (← keyIn x)) : Action (Machine κ ρ) Flow) m =
      if m.v x ≤ 0xF then
        (.ok (f (Keypad.isDown m.keypad (m.v x)).1),
          { m with keypad := (Keypad.isDown m.keypad (m.v x)).2 })
      else (.error (.noSuchKey (m.v x)), m) := by
  simp only [bind_apply, keyIn_eq hx]
  by_cases h : m.v x ≤ 0xF
  · rw [if_pos h, if_pos h]
    rfl
  · rw [if_neg h, if_neg h]

/-! ## Instructions that may fault -/

variable [Keypad κ] [ByteSource ρ]

/-- What performing a well-formed instruction comes to: a fault and the machine as it was, or where
the counter goes and the machine after the instruction. -/
def transaction (m : Machine κ ρ) (i : Instruction) : Except Fault Flow × Machine κ ρ :=
  match m.fault? i with
  | some e => (.error e, m)
  | none => (.ok (m.flow i), m.after i)

theorem transaction_of_some {i : Instruction} {e : Fault} (h : m.fault? i = some e) :
    m.transaction i = (.error e, m) := by
  rw [transaction, h]

theorem transaction_of_none {i : Instruction} (h : m.fault? i = none) :
    m.transaction i = (.ok (m.flow i), m.after i) := by
  rw [transaction, h]

theorem perform_ret : perform .ret m = m.transaction .ret := by
  simp only [perform, bind_apply, popFrame]
  by_cases h : 0 < m.stack.depth ∧ m.stack.depth ≤ stackDepth
  · rw [CallStack.pop?_eq _ h.1 h.2, transaction_of_none (i := .ret) (if_pos h)]
    rfl
  · rw [CallStack.pop?_eq_none _ h, transaction_of_some (i := .ret) (if_neg h)]

theorem perform_call (a : UInt16) : perform (.call a) m = m.transaction (.call a) := by
  simp only [perform, bind_apply, pushFrame, Action.change]
  by_cases h : m.stack.depth < stackDepth
  · rw [CallStack.push?_eq _ _ h, transaction_of_none (i := .call a) (if_pos h)]
    rfl
  · rw [CallStack.push_eq_none_iff.mpr (Nat.le_of_not_lt h),
      transaction_of_some (i := .call a) (if_neg h)]

theorem perform_draw {n : UInt8} (hx : x.toNat < registerCount) (hy : y.toNat < registerCount) :
    perform (.draw x y n) m = m.transaction (.draw x y n) := by
  simp only [perform, bind_apply, register_eq hx, register_eq hy, Action.view_apply]
  rcases Nat.lt_or_ge memorySize (m.index.toNat + n.toNat) with h | h
  · rw [Memory.slice_eq_error _ h, transaction_of_some (i := .draw x y n) (readFault?_of_gt h)]
  · rw [Memory.slice_eq _ h, transaction_of_none (i := .draw x y n) (readFault?_of_le h)]
    rfl

theorem perform_skipKeyDown (hx : x.toNat < registerCount) :
    perform (.skipKeyDown x) m = m.transaction (.skipKeyDown x) := by
  refine (isKeyDown_eq .skipIf hx).trans ?_
  by_cases h : m.v x ≤ 0xF
  · rw [if_pos h, transaction_of_none (i := .skipKeyDown x) (if_pos h)]
    rfl
  · rw [if_neg h, transaction_of_some (i := .skipKeyDown x) (if_neg h)]

theorem perform_skipKeyUp (hx : x.toNat < registerCount) :
    perform (.skipKeyUp x) m = m.transaction (.skipKeyUp x) := by
  refine (isKeyDown_eq (fun down => .skipIf !down) hx).trans ?_
  by_cases h : m.v x ≤ 0xF
  · rw [if_pos h, transaction_of_none (i := .skipKeyUp x) (if_pos h)]
    rfl
  · rw [if_neg h, transaction_of_some (i := .skipKeyUp x) (if_neg h)]

theorem perform_loadGlyph (hx : x.toNat < registerCount) :
    perform (.loadGlyph x) m = m.transaction (.loadGlyph x) := by
  simp only [perform, bind_apply, register_eq hx, Action.view_apply, glyphAddress]
  by_cases h : m.v x ≤ 0xF
  · rw [if_pos h, transaction_of_none (i := .loadGlyph x) (if_pos h)]
    rfl
  · rw [if_neg h, transaction_of_some (i := .loadGlyph x) (if_neg h)]

theorem perform_storeDecimal (hx : x.toNat < registerCount) :
    perform (.storeDecimal x) m = m.transaction (.storeDecimal x) := by
  simp only [perform]
  rw [Action.bind_apply_ok (register_eq hx)]
  have hne : decimalDigits (m.v x) ≠ [] := List.cons_ne_nil _ _
  exact storeBlock_eq hne

theorem perform_storeRegisters (hx : x.toNat < registerCount) :
    perform (.storeRegisters x) m = m.transaction (.storeRegisters x) := by
  have hlen := Registers.length_take (v := m.registers) hx
  have hthrough : m.registers.through x = .ok (m.registers.toList.take (x.toNat + 1)) :=
    if_pos hx
  have hne : m.registers.toList.take (x.toNat + 1) ≠ [] := by
    rw [← List.length_pos_iff, hlen]
    exact Nat.succ_pos _
  have hstore := storeBlock_eq (m := m) hne
  rw [hlen] at hstore
  refine Eq.trans ?_ hstore
  -- The registers are viewed behind the check of the block, on the same machine.
  simp only [perform, bind_apply, Action.view_apply]
  rcases Nat.lt_or_ge memorySize (m.index.toNat + (x.toNat + 1)) with h | h
  · rw [block_of_gt h]
  · rw [block_of_le (Nat.succ_pos _) h]
    simp only [hthrough]

theorem perform_loadRegisters (hx : x.toNat < registerCount) :
    perform (.loadRegisters x) m = m.transaction (.loadRegisters x) := by
  simp only [perform, bind_apply]
  rcases Nat.lt_or_ge memorySize (m.index.toNat + (x.toNat + 1)) with h | h
  · rw [block_of_gt h, transaction_of_some (i := .loadRegisters x) (readFault?_of_gt h)]
  · rw [block_of_le (Nat.succ_pos _) h,
      transaction_of_none (i := .loadRegisters x) (readFault?_of_le h)]
    simp only
    rw [loadRegisters_eq (by omega) h]
    rfl

/-! ## All instructions -/

/-- A well-formed instruction does all of its effect or nothing. -/
theorem perform_eq {i : Instruction} (hi : i.WellFormed) : perform i m = m.transaction i := by
  cases i
  all_goals
    simp only [Instruction.WellFormed, Instruction.operands, Instruction.Operand.Fits,
      List.mem_cons, List.not_mem_nil, or_false, forall_eq_or_imp, forall_eq] at hi
  case ret => exact perform_ret
  case call => exact perform_call _
  case draw => exact perform_draw hi.1 hi.2.1
  case skipKeyDown => exact perform_skipKeyDown hi
  case skipKeyUp => exact perform_skipKeyUp hi
  case loadGlyph => exact perform_loadGlyph hi.2
  case storeDecimal => exact perform_storeDecimal hi.2
  case storeRegisters => exact perform_storeRegisters hi.2
  case loadRegisters => exact perform_loadRegisters hi.1
  -- The others fault at most for want of a register, and they have their registers.
  all_goals
    simp [perform, bind_apply, setIndex, randomByte, register_eq, setRegister_eq, combine_eq,
      combineFlagged_eq, hi, transaction, fault?, flow, after, registersAfter, indexAfter,
      stackAfter, delayAfter, soundAfter, memoryAfter, screenAfter, modeAfter, keypadAfter,
      sourceAfter, Instruction.isDrawing]

end Chip8.Machine
