import Chip8.Proofs.Moves

/-!
# The machine invariant

`WellFormed` collects what holds of every machine that can be reached: the index names an address,
the frames fit the call stack, an awaited register exists, and memory below the program area is
that of a fresh machine. One lemma for each component says what a well-formed instruction does to
it, `WellFormed.move` puts them together, and `Reachable.wellFormed` is the one induction: calls
and drives of any kind are runs of moves and resets. With the hexadecimal keypad, whose pending key
exists, `Intact` says the same of machines and consoles behind any calls.
-/

namespace Chip8

/-- A pending key exists. -/
def HexPad.Valid (p : HexPad) : Prop := ∀ k, p.pending = some k → k.toNat < keyCount

theorem HexPad.valid_idle : idle.Valid := by
  intro k h
  cases h

namespace Machine

open Chip8.Action (runCalls runCalls_keeps)

structure WellFormed {κ ρ : Type} (m : Machine κ ρ) : Prop where
  index_lt : m.index.toNat < memorySize
  depth_le : m.stack.depth ≤ stackDepth
  register_lt : ∀ x, m.mode = .awaitingKey x → x.toNat < registerCount
  reserved : ∀ a < programStart, m.memory.byte a = Memory.fresh.byte a

/-- Well-formed, with a keypad that a wait can be ended by. -/
structure Intact {ρ : Type} (m : Machine HexPad ρ) : Prop extends WellFormed m where
  pad_valid : m.keypad.Valid

/-! ## Components -/

section
variable {κ ρ : Type} {m : Machine κ ρ} {i : Instruction}

theorem indexAfter_lt (hi : i.WellFormed) (h : m.index.toNat < memorySize) :
    (m.indexAfter i).toNat < memorySize := by
  unfold indexAfter
  split
  · rename_i a
    exact hi (.address a) (by simp [Instruction.operands])
  · rw [UInt16.toNat_mod]
    exact Nat.mod_lt _ (by decide)
  · rename_i x
    have hx := (m.v x).toNat_lt
    rw [UInt16.toNat_ofNat_of_lt' (by simp only [glyphSize, UInt16.size]; omega)]
    simp only [glyphSize, memorySize]
    omega
  · exact h

theorem stackAfter_depth_le (hf : m.fault? i = none) (h : m.stack.depth ≤ stackDepth) :
    (m.stackAfter i).depth ≤ stackDepth := by
  unfold stackAfter
  split
  · exact Nat.le_trans (Nat.sub_le _ _) h
  · by_cases hd : m.stack.depth < stackDepth
    · exact hd
    · simp [fault?, hd] at hf
  · exact h

theorem modeAfter_lt (hi : i.WellFormed)
    (h : ∀ x, m.mode = .awaitingKey x → x.toNat < registerCount) {x : UInt8}
    (hx : m.modeAfter i = .awaitingKey x) : x.toNat < registerCount := by
  unfold modeAfter at hx
  split at hx
  · cases hx
    exact hi (.register x) (by simp [Instruction.operands])
  · exact h x hx

theorem programStart_le_of_writeFault? {count : Nat} (h : m.writeFault? count = none) :
    programStart ≤ m.index.toNat := by
  unfold writeFault? at h
  split at h
  · split at h
    · assumption
    · cases h
  · cases h

/-- Instructions write to the program area only. -/
theorem memoryAfter_byte (hf : m.fault? i = none) {a : Nat} (ha : a < programStart) :
    (m.memoryAfter i).byte a = m.memory.byte a := by
  unfold memoryAfter
  split
  · have hs := programStart_le_of_writeFault? hf
    exact Memory.byte_overlay_of_outside (.inl (Nat.lt_of_lt_of_le ha hs))
  · have hs := programStart_le_of_writeFault? hf
    exact Memory.byte_overlay_of_outside (.inl (Nat.lt_of_lt_of_le ha hs))
  · rfl

end

/-! ## Reachable machines -/

section
variable {κ ρ : Type} {m t : Machine κ ρ}

namespace WellFormed

theorem fresh (keypad : κ) (source : ρ) : (Machine.fresh keypad source).WellFormed where
  index_lt := by simp [Machine.fresh]
  depth_le := Nat.zero_le _
  register_lt _ h := by cases h
  reserved _ _ := rfl

variable [Keypad κ] [ByteSource ρ]

theorem executed (h : m.WellFormed) {i : Instruction} (hi : i.WellFormed)
    (hf : m.fault? i = none) : (m.executed i).WellFormed where
  index_lt := indexAfter_lt hi h.index_lt
  depth_le := stackAfter_depth_le hf h.depth_le
  register_lt _ hx := modeAfter_lt hi h.register_lt hx
  reserved a ha := (memoryAfter_byte hf ha).trans (h.reserved a ha)

omit [Keypad κ] [ByteSource ρ] in
theorem quiet (h : m.WellFormed) (hq : m.Quiet t) : t.WellFormed where
  index_lt := by
    rw [hq.index]
    exact h.index_lt
  depth_le := by
    rw [hq.stack]
    exact h.depth_le
  register_lt x hx := by
    rcases hq.mode with hmode | hmode
    · exact h.register_lt x (hmode.symm.trans hx)
    · cases hmode.symm.trans hx
  reserved a ha := (hq.reserved a ha).trans (h.reserved a ha)

theorem move (h : m.WellFormed) {label : Option Instruction} (hmove : Move m label t) :
    t.WellFormed := by
  rcases hmove.cases with ⟨i, -, hi, hf, rfl⟩ | ⟨-, hq⟩
  · exact h.executed hi hf
  · exact h.quiet hq

end WellFormed

theorem Reachable.wellFormed [Keypad κ] [ByteSource ρ] (h : m.Reachable) : m.WellFormed := by
  induction h with
  | fresh keypad source => exact .fresh keypad source
  | move _ hmove ih => exact ih.move hmove
  | @reset m _ _ => exact { WellFormed.fresh m.keypad m.source with }

end

/-! ## The hexadecimal keypad -/

section
variable {ρ : Type} [ByteSource ρ] {m : Machine HexPad ρ}

omit [ByteSource ρ] in
theorem valid_changeKeypad (h : m.keypad.Valid) {f : HexPad → Except Fault HexPad}
    (hf : ∀ p, f m.keypad = .ok p → p.Valid) : (changeKeypad f m).2.keypad.Valid := by
  cases hp : f m.keypad with
  | error e =>
    rw [changeKeypad, Action.change_apply_error (by rw [hp]; rfl)]
    exact h
  | ok p =>
    rw [changeKeypad, Action.change_apply_ok (by rw [hp]; rfl)]
    exact hf p hp

omit [ByteSource ρ] in
/-- An instruction keeps the pending press or forgets it. -/
theorem valid_keypadAfter (h : m.keypad.Valid) (i : Instruction) : (m.keypadAfter i).Valid := by
  unfold keypadAfter
  split
  · exact h
  · exact h
  · exact fun _ e => nomatch e
  · exact h

theorem valid_execute (h : m.keypad.Valid) (w : Opcode) : (execute w m).2.keypad.Valid := by
  rcases execute_state m w with he | ⟨i, -, -, he⟩
  · rw [he]
    exact h
  · rw [he]
    exact valid_keypadAfter h i

theorem valid_step (h : m.keypad.Valid) : (step m).2.keypad.Valid := by
  cases hm : m.mode with
  | running =>
    rcases step_cases hm with ⟨-, e, hs⟩ | ⟨i, -, -, -, hs⟩
    · rw [hs]
      exact h
    · rw [hs]
      exact valid_keypadAfter h i
  | awaitingKey x =>
    -- A poll leaves no press behind.
    have hpad : Keypad.nextPress m.keypad = (m.keypad.pending, m.keypad.forgetPress) := rfl
    rw [step_polling hm, hpad]
    cases m.keypad.pending with
    | none => exact fun _ e => nomatch e
    | some key =>
      obtain ⟨registers, pc, mode, hr, -⟩ :=
        resume_frame { m with keypad := m.keypad.forgetPress } x key
      simp only [hr]
      exact fun _ e => nomatch e

theorem valid_act (call : Call) (m : Machine HexPad ρ) (h : m.keypad.Valid) :
    (act call m).2.keypad.Valid := by
  cases call with
  | load program =>
    cases hl : m.load program with
    | error e =>
      rw [act, Action.change_apply_error hl]
      exact h
    | ok t =>
      obtain ⟨-, rfl⟩ := load_eq_ok_iff.mp hl
      rw [act, Action.change_apply_ok hl]
      exact h
  | execute w => exact valid_execute h w
  | step =>
    rw [act_step]
    exact valid_step h
  | reset | takeRedraw | setDelay | setSound | tickDelay | tickSound => exact h
  | press key =>
    refine valid_changeKeypad h fun p hp k hk => ?_
    rw [HexPad.pending_press hp] at hk
    cases hpend : m.keypad.pending with
    | some j =>
      rw [hpend] at hk
      exact h k (hpend.trans hk)
    | none =>
      rw [hpend] at hk
      cases hk
      exact HexPad.lt_of_press hp
  | release key =>
    refine valid_changeKeypad h fun p hp k hk => ?_
    rw [HexPad.pending_release hp] at hk
    exact h k hk
  | pollPress | clearPresses => exact fun _ e => nomatch e

/-- A machine that waits for a key does not refuse the one it gets. -/
theorem Intact.step_awaiting_ok (h : m.Intact) {x : UInt8} (hm : m.mode = .awaitingKey x) :
    ∃ mode, (step m).1 = .ok mode := by
  have hx := h.register_lt x hm
  cases hp : m.keypad.pending with
  | none => exact ⟨_, congrArg Prod.fst (step_unpressed hm hx hp)⟩
  | some k => exact ⟨_, congrArg Prod.fst (step_pressed hm hx hp (h.pad_valid k hp))⟩

end

/-! ## Runs from a fresh machine -/

theorem intact_of_calls [ByteSource ρ] (source : ρ) (calls : List Call) :
    (runCalls act (Machine.fresh .idle source) calls).Intact :=
  { ((Reachable.fresh HexPad.idle source).runCalls calls).wellFormed with
    pad_valid := runCalls_keeps (fun call _ => valid_act call) HexPad.valid_idle }

theorem intact_of_console [ByteSource ρ] (source : ρ) (calls : List Console.Call) :
    (runCalls Console.act (.fresh source) calls).machine.Intact :=
  have hfresh : (Console.fresh source).machine.Reachable := .fresh HexPad.idle source
  { (hfresh.console calls).wellFormed with
    pad_valid := Console.runCalls_machine_keeps valid_act HexPad.valid_idle calls }

theorem byte_fresh {a : Nat} (h : a < memorySize) : Memory.fresh.byte a = fontSheet.getD a 0 := by
  rw [Memory.byte, Vector.getElem?_eq_getElem h]
  simp [Memory.fresh]

/-- After any calls the index is an address, the stack pointer one of sixteen or none, an awaited
register and a pending key exist, and the font and the zeros behind it are as they were. -/
theorem bounds_and_font_after_runCalls [ByteSource ρ] (source : ρ) (calls : List Call) :
    let m := runCalls act (Machine.fresh .idle source) calls
    m.index ≤ 0xFFF ∧
    (∀ top, m.stack.top? = some top → top ≤ 15) ∧
    (∀ x, m.mode = .awaitingKey x → x ≤ 0xF) ∧
    (∀ k, m.keypad.pending = some k → k ≤ 0xF) ∧
    ∀ a < programStart, m.memory.read a = Memory.fresh.read a ∧
      m.memory.read a = .ok (fontSheet.getD a 0) := by
  intro m
  have h : m.Intact := intact_of_calls source calls
  refine ⟨?_, ?_, ?_, ?_, ?_⟩
  · rw [UInt16.le_iff_toNat_le]
    exact Nat.le_of_lt_succ h.index_lt
  · intro top htop
    have hd := h.depth_le
    unfold CallStack.top? at htop
    split at htop
    · cases htop
    · cases htop
      exact Nat.sub_le_of_le_add hd
  · exact fun x hx => HexPad.le_iff_lt.mpr (h.register_lt x hx)
  · exact fun k hk => HexPad.le_iff_lt.mpr (h.pad_valid k hk)
  · intro a ha
    have hlt : a < memorySize := Nat.lt_trans ha (by decide)
    rw [Memory.read_eq _ hlt, Memory.read_eq _ hlt, h.reserved a ha]
    exact ⟨rfl, congrArg Except.ok (byte_fresh hlt)⟩

/-- `F155` at `1FF` is refused, then a call is made and a key is pressed in a wait. -/
theorem bounds_and_font_after_refused_store :
    let m := runCalls act (Machine.fresh .idle (WordCycle.ofList []))
      [.execute 0xA1FF, .execute 0xF155, .execute 0x2300, .execute 0xF30A, .press 5]
    m.stack.top? = some 0 ∧ 0 ≤ 15 ∧ m.mode = .awaitingKey 3 ∧ (3 : UInt8) ≤ 0xF ∧
    m.keypad.pending = some 5 ∧ (5 : UInt8) ≤ 0xF ∧ m.index ≤ 0xFFF ∧
    m.memory.read 0x1FF = .ok (fontSheet.getD 0x1FF 0) := by
  intro m
  have htop : m.stack.top? = some 0 := rfl
  have hmode : m.mode = .awaitingKey 3 := rfl
  have hpending : m.keypad.pending = some 5 := rfl
  obtain ⟨hindex, htops, hmodes, hpresses, hbytes⟩ :=
    bounds_and_font_after_runCalls (WordCycle.ofList [])
      [.execute 0xA1FF, .execute 0xF155, .execute 0x2300, .execute 0xF30A, .press 5]
  exact ⟨htop, htops 0 htop, hmode, hmodes 3 hmode, hpending, hpresses 5 hpending, hindex,
    (hbytes 0x1FF (by decide)).2⟩

end Machine

end Chip8
