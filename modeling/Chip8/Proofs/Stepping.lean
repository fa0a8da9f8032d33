import Chip8.Keypad.HexPad
import Chip8.Proofs.Perform

/-!
# What an opcode and a step do

`execute_eq` gives the outcome of an opcode on every machine, `step_running` and `step_polling` that
of a step in either mode, and `step_awaiting` what a poll comes to if the awaited register exists.
Later proofs start from the inversions `execute_ok_iff` and
`execute_error_iff`, and for steps from `step_cases`, which says what a running machine does by the
instruction `performed?` that it performs, and `step_awaiting_frame`.
-/

namespace Chip8.Machine

open Chip8.Action (bind_apply)

variable {κ ρ : Type} [Keypad κ] [ByteSource ρ] {m t : Machine κ ρ}

/-! ## Loading -/

omit [Keypad κ] [ByteSource ρ] in
/-- A program that fits is laid over memory; one that does not is refused. -/
theorem load_eq_ok_iff {program : Array UInt8} :
    m.load program = .ok t ↔ program.size ≤ programCapacity ∧
      t = { m with memory := ⟨overlay m.memory.bytes programStart program.toList⟩ } := by
  unfold load
  by_cases hp : program.size ≤ programCapacity
  · rw [Memory.load_eq _ hp]
    exact ⟨fun e => ⟨hp, (Except.ok.inj e).symm⟩, fun e => congrArg Except.ok e.2.symm⟩
  · rw [Memory.load, if_neg hp]
    exact ⟨fun e => (nomatch e), fun e => absurd e.1 hp⟩

omit [Keypad κ] [ByteSource ρ] in
theorem load_frame {program : Array UInt8} (h : m.load program = .ok t) :
    m.memory.load program = .ok t.memory ∧ t = { m with memory := t.memory } := by
  unfold load at h
  cases hm : m.memory.load program with
  | error e =>
    rw [hm] at h
    cases h
  | ok memory =>
    rw [hm] at h
    cases h
    exact ⟨rfl, rfl⟩

omit [Keypad κ] [ByteSource ρ] in
theorem load_eq_error {program : Array UInt8} (h : programCapacity < program.size) :
    m.load program = .error (.programTooLarge program.size programCapacity) := by
  rw [load, Memory.load, if_neg (Nat.not_le.mpr h)]
  rfl

/-! ## Opcodes -/

theorem execute_eq (m : Machine κ ρ) (w : Opcode) :
    execute w m =
      match Instruction.decode? w with
      | none => (.error (.unknownInstruction w), m)
      | some i =>
        match m.fault? i with
        | some e => (.error e, m)
        | none => (.ok (), m.executed i) := by
  rw [execute, bind_apply, Action.view_apply]
  cases hd : Instruction.decode? w with
  | none => rw [Instruction.decode_eq_error_iff.mpr ⟨hd, rfl⟩]
  | some i =>
    rw [Instruction.decode_eq_ok_iff.mpr hd]
    simp only [bind_apply, perform_eq (Instruction.wellFormed_of_decode? hd), transaction]
    cases m.fault? i with
    | some e => rfl
    | none => rfl

theorem execute_ok_iff {w : Opcode} :
    execute w m = (.ok (), t) ↔
      ∃ i, Instruction.decode? w = some i ∧ m.fault? i = none ∧ t = m.executed i := by
  rw [execute_eq]
  cases hd : Instruction.decode? w with
  | none => simp
  | some i =>
    cases hf : m.fault? i with
    | some e => simp [hf]
    | none => simp [hf, eq_comm]

theorem execute_error_iff {w : Opcode} {e : Fault} :
    execute w m = (.error e, t) ↔
      t = m ∧ (Instruction.decode? w = none ∧ e = .unknownInstruction w ∨
        ∃ i, Instruction.decode? w = some i ∧ m.fault? i = some e) := by
  rw [execute_eq]
  cases hd : Instruction.decode? w with
  | none => simp [eq_comm, and_comm]
  | some i =>
    cases hf : m.fault? i with
    | some e' => simp [hf, eq_comm, and_comm]
    | none => simp [hf]

/-- An opcode leaves the machine as it was, or performs a well-formed instruction on it. -/
theorem execute_state (m : Machine κ ρ) (w : Opcode) :
    (execute w m).2 = m ∨
      ∃ i, i.WellFormed ∧ m.fault? i = none ∧ (execute w m).2 = m.executed i := by
  rw [execute_eq]
  cases hd : Instruction.decode? w with
  | none => exact .inl rfl
  | some i =>
    cases hf : m.fault? i with
    | some e => exact .inl (by simp only [hf])
    | none =>
      exact .inr ⟨i, Instruction.wellFormed_of_decode? hd, hf, by simp only [hf]⟩

/-! ## Steps -/

/-- The machine after a key ended the wait for `Vx`. -/
def resumed (m : Machine κ ρ) (x key : UInt8) : Machine κ ρ :=
  { m with registers := m.registers.put x key, pc := m.pc + 2, mode := .running }

omit [Keypad κ] [ByteSource ρ] in
theorem resume_eq {x key : UInt8} (hx : x.toNat < registerCount) :
    resume x key m =
      if key ≤ 0xF then (.ok (), m.resumed x key) else (.error (.noSuchKey key), m) := by
  rw [resume]
  split
  · rw [bind_apply, setRegister_eq _ hx]
    rfl
  · rfl

theorem step_running (h : m.mode = .running) :
    step m =
      match m.fetch with
      | .error e => (.error e, m)
      | .ok w => ((execute w m).1.map fun _ => (execute w m).2.mode, (execute w m).2) := by
  rw [step, bind_apply, Action.view_apply, h]
  simp only [bind_apply, Action.view_apply]
  cases m.fetch with
  | error e => rfl
  | ok w =>
    simp only
    rcases execute w m with ⟨r, t⟩
    cases r with
    | error e => rfl
    | ok _ => rfl

/-- While a key is awaited, the keypad is polled, and a press is delivered. -/
theorem step_polling {x : UInt8} (h : m.mode = .awaitingKey x) :
    step m =
      match Keypad.nextPress m.keypad with
      | (none, keypad) => (.ok (.awaitingKey x), { m with keypad })
      | (some key, keypad) =>
        ((resume x key { m with keypad }).1.map fun _ => (resume x key { m with keypad }).2.mode,
          (resume x key { m with keypad }).2) := by
  conv => lhs; rw [step, bind_apply, Action.view_apply, h]
  simp only [bind_apply, nextPress, Action.modifyGet_apply]
  rcases Keypad.nextPress m.keypad with ⟨_ | key, keypad⟩
  · simp only [Action.view_apply, h]
  · simp only [bind_apply]
    rcases resume x key { m with keypad } with ⟨_ | _, t⟩
    · rfl
    · rfl

/-- The instruction that a step performs, if it performs one. -/
def performed? (m : Machine κ ρ) : Option Instruction :=
  match m.mode, m.fetch with
  | .running, .ok w =>
    match (execute w m).1 with
    | .ok _ => Instruction.decode? w
    | .error _ => none
  | _, _ => none

theorem performed?_of_awaiting {x : UInt8} (h : m.mode = .awaitingKey x) :
    m.performed? = none := by
  rw [performed?, h]

theorem performed_of_fetch {w : Opcode} {i : Instruction} (hm : m.mode = .running)
    (hw : m.fetch = .ok w) (hd : Instruction.decode? w = some i) (hf : m.fault? i = none) :
    m.performed? = some i := by
  have hok : execute w m = (.ok (), m.executed i) := execute_ok_iff.mpr ⟨i, hd, hf, rfl⟩
  simp only [performed?, hm, hw, hok, hd]

/-- What a step performs stands at the program counter of a running machine. -/
theorem fetch_of_performed {i : Instruction} (h : m.performed? = some i) :
    m.mode = .running ∧ ∃ w, m.fetch = .ok w ∧ Instruction.decode? w = some i := by
  unfold performed? at h
  split at h
  · rename_i w hm hw
    split at h
    · exact ⟨hm, w, hw, h⟩
    · cases h
  · cases h

theorem step_of_performed {i : Instruction} (h : m.performed? = some i) :
    i.WellFormed ∧ m.fault? i = none ∧ step m = (.ok (m.executed i).mode, m.executed i) := by
  unfold performed? at h
  split at h
  · rename_i w hm hw
    split at h
    · rename_i hok
      obtain ⟨j, hj, hf, ht⟩ := execute_ok_iff.mp (Prod.ext hok rfl : execute w m = (.ok (), _))
      cases hj.symm.trans h
      refine ⟨Instruction.wellFormed_of_decode? h, hf, ?_⟩
      rw [step_running hm, hw]
      simp only [hok, ht]
      rfl
    · cases h
  · cases h

theorem step_of_not_performed (hm : m.mode = .running) (h : m.performed? = none) :
    ∃ e, step m = (.error e, m) := by
  rw [step_running hm]
  cases hw : m.fetch with
  | error e => exact ⟨e, rfl⟩
  | ok w =>
    cases hd : Instruction.decode? w with
    | none => exact ⟨_, by simp only [execute_eq, hd]; rfl⟩
    | some i =>
      cases hf : m.fault? i with
      | some e => exact ⟨e, by simp only [execute_eq, hd, hf]; rfl⟩
      | none => cases h.symm.trans (performed_of_fetch hm hw hd hf)

/-- A step executes the opcode `w`, without a fault. -/
structure Executes (m : Machine κ ρ) (w : Opcode) : Prop where
  mode : m.mode = .running
  fetch : m.fetch = .ok w
  ok : (execute w m).1 = .ok ()

/-- What is performed is what the executed opcode stands for. -/
theorem performed?_eq_some_iff {i : Instruction} :
    m.performed? = some i ↔ ∃ w, m.Executes w ∧ Instruction.decode? w = some i := by
  constructor
  · intro hp
    obtain ⟨hm, w, hw, hd⟩ := fetch_of_performed hp
    obtain ⟨-, hf, -⟩ := step_of_performed hp
    have hok : execute w m = (.ok (), m.executed i) := execute_ok_iff.mpr ⟨i, hd, hf, rfl⟩
    exact ⟨w, ⟨hm, hw, congrArg Prod.fst hok⟩, hd⟩
  · rintro ⟨w, ⟨hm, hw, hok⟩, hd⟩
    obtain ⟨j, hj, hf, -⟩ := execute_ok_iff.mp (Prod.ext hok rfl : execute w m = (.ok (), _))
    cases hj.symm.trans hd
    exact performed_of_fetch hm hw hd hf

/-- While running, a step faults and changes nothing, or performs an instruction. -/
theorem step_cases (hm : m.mode = .running) :
    (m.performed? = none ∧ ∃ e, step m = (.error e, m)) ∨
    ∃ i, m.performed? = some i ∧ i.WellFormed ∧ m.fault? i = none ∧
      step m = (.ok (m.executed i).mode, m.executed i) := by
  cases hp : m.performed? with
  | none => exact .inl ⟨rfl, step_of_not_performed hm hp⟩
  | some i => exact .inr ⟨i, rfl, step_of_performed hp⟩

theorem step_awaiting {x : UInt8} (h : m.mode = .awaitingKey x) (hx : x.toNat < registerCount) :
    step m =
      match Keypad.nextPress m.keypad with
      | (none, keypad) => (.ok (.awaitingKey x), { m with keypad })
      | (some key, keypad) =>
        if key ≤ 0xF then (.ok .running, { m with keypad }.resumed x key)
        else (.error (.noSuchKey key), { m with keypad }) := by
  rw [step_polling h]
  rcases Keypad.nextPress m.keypad with ⟨_ | key, keypad⟩
  · rfl
  · simp only [resume_eq hx]
    by_cases hk : key ≤ 0xF
    · rw [if_pos hk, if_pos hk]
      rfl
    · rw [if_neg hk, if_neg hk]
      rfl

omit [Keypad κ] [ByteSource ρ] in
theorem resume_frame (m : Machine κ ρ) (x key : UInt8) :
    ∃ registers pc mode, (resume x key m).2 = { m with registers, pc, mode } ∧
      (mode = m.mode ∨ mode = .running) := by
  unfold resume
  split
  · rw [bind_apply]
    cases hset : m.registers.set x key with
    | ok registers =>
      rw [setRegister, Action.change_apply_ok (by rw [hset]; rfl)]
      exact ⟨registers, _, _, rfl, .inr rfl⟩
    | error e =>
      rw [setRegister, Action.change_apply_error (by rw [hset]; rfl)]
      exact ⟨_, _, _, rfl, .inl rfl⟩
  · exact ⟨_, _, _, rfl, .inl rfl⟩

/-- A poll changes what delivering a key changes, and nothing else; it goes on waiting for the same
register or ends the wait. -/
theorem step_awaiting_frame {x : UInt8} (h : m.mode = .awaitingKey x) :
    ∃ registers pc mode keypad, (step m).2 = { m with registers, pc, mode, keypad } ∧
      (mode = .awaitingKey x ∨ mode = .running) := by
  rw [step_polling h]
  rcases Keypad.nextPress m.keypad with ⟨_ | key, keypad⟩
  · exact ⟨_, _, _, keypad, rfl, .inl h⟩
  · obtain ⟨registers, pc, mode, hr, hmode⟩ := resume_frame { m with keypad } x key
    exact ⟨registers, pc, mode, keypad, hr, hmode.imp_left (·.trans h)⟩

omit [Keypad κ] [ByteSource ρ] in
theorem awaitKey_of_modeAfter {i : Instruction} {x : UInt8} (hm : m.mode = .running)
    (h : m.modeAfter i = .awaitingKey x) : i = .awaitKey x := by
  unfold modeAfter at h
  split at h
  · cases h
    rfl
  · cases hm.symm.trans h

/-- Only performing an `awaitKey` begins a wait. -/
theorem awaiting_of_step {x : UInt8} (h : (step m).2.mode = .awaitingKey x) :
    m.mode = .awaitingKey x ∨ m.performed? = some (.awaitKey x) := by
  cases hm : m.mode with
  | awaitingKey y =>
    left
    obtain ⟨registers, pc, mode, keypad, hs, hmode⟩ := step_awaiting_frame hm
    rw [hs] at h
    obtain rfl : mode = .awaitingKey x := h
    rcases hmode with hy | hrunning
    · exact hy.symm
    · cases hrunning
  | running =>
    right
    rcases step_cases hm with ⟨-, e, hs⟩ | ⟨i, hp, -, -, hs⟩
    · rw [hs] at h
      cases hm.symm.trans h
    · rw [hs] at h
      rw [hp, awaitKey_of_modeAfter hm h]

end Chip8.Machine

/-! ## Steps with the hexadecimal keypad -/

namespace Chip8

theorem HexPad.le_iff_lt {k : UInt8} : k ≤ 0xF ↔ k.toNat < keyCount := by
  rw [UInt8.le_iff_toNat_le]
  exact Nat.lt_succ_iff.symm

theorem HexPad.lt_of_press {p q : HexPad} {k : UInt8} (h : p.press k = .ok q) :
    k.toNat < keyCount := by
  unfold HexPad.press at h
  split at h
  · assumption
  · cases h

namespace Machine

variable {ρ : Type} [ByteSource ρ] {m : Machine HexPad ρ} {x : UInt8}

theorem step_unpressed (h : m.mode = .awaitingKey x) (hx : x.toNat < registerCount)
    (hp : m.keypad.pending = none) : step m = (.ok (.awaitingKey x), m) := by
  have hpad : m.keypad.takePress = (none, m.keypad) := by
    rw [HexPad.takePress, ← hp]
  rw [step_awaiting h hx]
  simp only [Keypad.nextPress, hpad]

theorem step_pressed {k : UInt8} (h : m.mode = .awaitingKey x) (hx : x.toNat < registerCount)
    (hp : m.keypad.pending = some k) (hk : k.toNat < keyCount) :
    step m = (.ok .running, { m with keypad := m.keypad.forgetPress }.resumed x k) := by
  rw [step_awaiting h hx]
  simp only [Keypad.nextPress, HexPad.takePress, hp, if_pos (HexPad.le_iff_lt.mpr hk)]
  rfl

end Machine

end Chip8
