import Chip8.Proofs.Invariant
import Chip8.Proofs.Table

/-!
# The fault table

Which opcodes a machine refuses, and how. The table reads the word, the index, one register and the
number of frames, and nothing else: the operands of a word always name registers, and what lies in
memory behind the checks of a block is never refused. A step adds the fetch behind the end of
memory to it. With the hexadecimal keypad a machine that was reached by calls holds no press that a
waiting step could refuse.
-/

namespace Chip8

open Chip8.Action (runCalls)

/-- Words that store `count` bytes at the index. -/
def Opcode.Stores (w : Opcode) (count : Nat) : Prop :=
  w.family = 0xF ∧ (w.kk = 0x33 ∧ count = 3 ∨ w.kk = 0x55 ∧ count = w.x.toNat + 1)

namespace Machine

variable {κ ρ : Type} {m t : Machine κ ρ} {w : Opcode} {e : Fault}

/-- The faults of an opcode. -/
inductive Refuses (m : Machine κ ρ) (w : Opcode) : Fault → Prop
  | unknown : (∀ i, ¬w.Row i) → Refuses m w (.unknownInstruction w)
  | underflow : w = 0x00EE → m.stack.frames = [] → Refuses m w (.stackUnderflow m.pc)
  | overflow : w.family = 0x2 → m.stack.frames.length = 16 →
      Refuses m w (.stackOverflow m.pc)
  | key : w.family = 0xE → w.kk = 0x9E ∨ w.kk = 0xA1 → 0xF < m.v w.x →
      Refuses m w (.noSuchKey (m.v w.x))
  | glyph : w.family = 0xF → w.kk = 0x29 → 0xF < m.v w.x → Refuses m w (.noSuchGlyph (m.v w.x))
  | sprite : w.family = 0xD → 0x1000 < m.index.toNat + w.n.toNat →
      Refuses m w (.addressOutOfRange (m.index.toNat + w.n.toNat - 1))
  | loadEnd : w.family = 0xF → w.kk = 0x65 → 0xFFF < m.index.toNat + w.x.toNat →
      Refuses m w (.addressOutOfRange (m.index.toNat + w.x.toNat))
  | storeEnd {count : Nat} : w.Stores count → 0xFFF < m.index.toNat + count - 1 →
      Refuses m w (.addressOutOfRange (m.index.toNat + count - 1))
  | storeStart {count : Nat} : w.Stores count → m.index.toNat + count - 1 ≤ 0xFFF →
      m.index.toNat < 0x200 → Refuses m w (.addressOutOfRange m.index.toNat)

/-! ## Blocks -/

theorem readFault?_eq_some {count : Nat} :
    m.readFault? count = some e ↔ 0x1000 < m.index.toNat + count ∧
      e = .addressOutOfRange (m.index.toNat + count - 1) := by
  rcases Nat.lt_or_ge 0x1000 (m.index.toNat + count) with h | h
  · rw [readFault?_of_gt h, Option.some.injEq]
    exact ⟨fun he => ⟨h, he.symm⟩, fun he => he.2.symm⟩
  · rw [readFault?_of_le h]
    exact ⟨fun he => (nomatch he), fun he => absurd he.1 (Nat.not_lt.mpr h)⟩

theorem writeFault?_eq_some {count : Nat} :
    m.writeFault? count = some e ↔
      0xFFF < m.index.toNat + count - 1 ∧ e = .addressOutOfRange (m.index.toNat + count - 1) ∨
      m.index.toNat + count - 1 ≤ 0xFFF ∧ m.index.toNat < 0x200 ∧
        e = .addressOutOfRange m.index.toNat := by
  unfold writeFault?
  simp only [memorySize, programStart]
  split
  · split
    · simp only [reduceCtorEq, false_iff]
      omega
    · simp only [Option.some.injEq]
      constructor
      · exact fun h => .inr ⟨by omega, by omega, h.symm⟩
      · rintro (⟨h, -⟩ | ⟨-, -, rfl⟩)
        · omega
        · rfl
  · simp only [Option.some.injEq]
    constructor
    · exact fun h => .inl ⟨by omega, h.symm⟩
    · rintro (⟨-, rfl⟩ | ⟨h, -⟩)
      · rfl
      · omega

theorem Refuses.of_writeFault? {count : Nat} (hw : w.Stores count)
    (h : m.writeFault? count = some e) : m.Refuses w e := by
  rcases writeFault?_eq_some.mp h with ⟨hend, rfl⟩ | ⟨hend, hstart, rfl⟩
  · exact .storeEnd hw hend
  · exact .storeStart hw hend hstart

/-- A word that stores bytes is in a row of the table that faults as storing them does. -/
theorem row_of_stores {count : Nat} (h : w.Stores count) :
    ∃ i, w.Row i ∧ m.fault? i = m.writeFault? count := by
  obtain ⟨hf, ⟨hk, rfl⟩ | ⟨hk, rfl⟩⟩ := h
  · exact ⟨_, .storeDecimal hf hk, rfl⟩
  · exact ⟨_, .storeRegisters hf hk, rfl⟩

/-! ## Opcodes -/

/-- What an instruction faults with is in the table, for every word that stands for it. -/
theorem Refuses.of_fault? {i : Instruction} (hd : m.stack.depth ≤ stackDepth) (hrow : w.Row i)
    (h : m.fault? i = some e) : m.Refuses w e := by
  have hlength := m.stack.length_frames hd
  cases hrow with
  | ret hw =>
    obtain ⟨hempty, he⟩ := Option.ite_none_left_eq_some.mp h
    cases he
    exact .underflow hw (List.eq_nil_of_length_eq_zero (by omega))
  | call hf =>
    obtain ⟨hfull, he⟩ := Option.ite_none_left_eq_some.mp h
    cases he
    exact .overflow hf (hlength.trans (Nat.le_antisymm hd (Nat.le_of_not_lt hfull)))
  | draw hf =>
    obtain ⟨hend, rfl⟩ := readFault?_eq_some.mp h
    exact .sprite hf hend
  | skipKeyDown hf hk =>
    obtain ⟨hkey, he⟩ := Option.ite_none_left_eq_some.mp h
    cases he
    exact .key hf (.inl hk) (UInt8.not_le.mp hkey)
  | skipKeyUp hf hk =>
    obtain ⟨hkey, he⟩ := Option.ite_none_left_eq_some.mp h
    cases he
    exact .key hf (.inr hk) (UInt8.not_le.mp hkey)
  | loadGlyph hf hk =>
    obtain ⟨hdigit, he⟩ := Option.ite_none_left_eq_some.mp h
    cases he
    exact .glyph hf hk (UInt8.not_le.mp hdigit)
  | storeDecimal hf hk => exact .of_writeFault? ⟨hf, .inl ⟨hk, rfl⟩⟩ h
  | storeRegisters hf hk => exact .of_writeFault? ⟨hf, .inr ⟨hk, rfl⟩⟩ h
  | loadRegisters hf hk =>
    obtain ⟨hend, rfl⟩ := readFault?_eq_some.mp h
    exact .loadEnd hf hk (by omega)
  | _ => cases h

/-- What the table lists is what decoding or the instruction faults with. -/
theorem Refuses.fault? (hd : m.stack.depth ≤ stackDepth) (h : m.Refuses w e) :
    (∀ i, ¬w.Row i) ∧ e = .unknownInstruction w ∨ ∃ i, w.Row i ∧ m.fault? i = some e := by
  have hlength := m.stack.length_frames hd
  cases h with
  | unknown hrow => exact .inl ⟨hrow, rfl⟩
  | underflow hw hempty =>
    rw [hempty, List.length_nil] at hlength
    exact .inr ⟨_, .ret hw, if_neg (by omega)⟩
  | overflow hf hfull =>
    rw [hlength] at hfull
    exact .inr ⟨_, .call hf, if_neg (Nat.not_lt.mpr (Nat.le_of_eq hfull.symm))⟩
  | key hf hk hkey =>
    rcases hk with hk | hk
    · exact .inr ⟨_, .skipKeyDown hf hk, if_neg (UInt8.not_le.mpr hkey)⟩
    · exact .inr ⟨_, .skipKeyUp hf hk, if_neg (UInt8.not_le.mpr hkey)⟩
  | glyph hf hk hdigit => exact .inr ⟨_, .loadGlyph hf hk, if_neg (UInt8.not_le.mpr hdigit)⟩
  | sprite hf hend => exact .inr ⟨_, .draw hf, readFault?_of_gt hend⟩
  | loadEnd hf hk hend =>
    exact .inr ⟨_, .loadRegisters hf hk, readFault?_eq_some.mpr ⟨by omega, rfl⟩⟩
  | storeEnd hw hend =>
    obtain ⟨i, hrow, hi⟩ := row_of_stores (m := m) hw
    exact .inr ⟨i, hrow, hi.trans (writeFault?_eq_some.mpr (.inl ⟨hend, rfl⟩))⟩
  | storeStart hw hend hstart =>
    obtain ⟨i, hrow, hi⟩ := row_of_stores (m := m) hw
    exact .inr ⟨i, hrow, hi.trans (writeFault?_eq_some.mpr (.inr ⟨hend, hstart, rfl⟩))⟩

variable [Keypad κ] [ByteSource ρ]

theorem execute_error_iff_refuses (hd : m.stack.depth ≤ stackDepth) :
    execute w m = (.error e, t) ↔ t = m ∧ m.Refuses w e := by
  rw [execute_error_iff]
  refine and_congr_right fun _ => ⟨?_, fun h => ?_⟩
  · rintro (⟨hnone, rfl⟩ | ⟨i, hsome, hf⟩)
    · exact .unknown (Instruction.decode?_eq_none_iff.mp hnone)
    · exact .of_fault? hd (Instruction.row_of_decode? hsome) hf
  · rcases h.fault? hd with ⟨hrow, he⟩ | ⟨i, hrow, hf⟩
    · exact .inl ⟨Instruction.decode?_eq_none_iff.mpr hrow, he⟩
    · exact .inr ⟨i, Instruction.decode?_of_row hrow, hf⟩

/-! ## Steps -/

/-- The word at the program counter. -/
def word (m : Machine κ ρ) : Opcode :=
  UInt16.ofNat (256 * (m.memory.byte m.pc.toNat).toNat + (m.memory.byte (m.pc.toNat + 1)).toNat)

omit [Keypad κ] [ByteSource ρ] in
theorem fetch_of_le (h : m.pc.toNat ≤ 0xFFE) : m.fetch = .ok m.word := by
  have hhigh : m.pc.toNat < 0x1000 := by omega
  have hlow : m.pc.toNat + 1 < 0x1000 := by omega
  rw [fetch, Memory.readWord, Memory.read_eq _ hhigh, Memory.read_eq _ hlow]
  rfl

omit [Keypad κ] [ByteSource ρ] in
/-- The word at the last address lacks its low byte, those behind it their high byte as well. -/
theorem fetch_of_gt (h : 0xFFE < m.pc.toNat) :
    m.fetch = .error (.addressOutOfRange (max m.pc.toNat 0x1000)) := by
  rw [fetch, Memory.readWord]
  rcases Nat.lt_or_ge m.pc.toNat 0x1000 with hlt | hge
  · have hlast : m.pc.toNat + 1 = 0x1000 := by omega
    rw [Memory.read_eq _ hlt, hlast, Memory.read_of_ge _ (Nat.le_refl _),
      Nat.max_eq_right (Nat.le_of_lt hlt)]
    rfl
  · rw [Memory.read_of_ge _ hge, Nat.max_eq_left hge]
    rfl

/-- The faults of a step of a running machine. -/
inductive StepRefuses (m : Machine κ ρ) : Fault → Prop
  | fetch : 0xFFE < m.pc.toNat → StepRefuses m (.addressOutOfRange (max m.pc.toNat 0x1000))
  | execute {e : Fault} : m.pc.toNat ≤ 0xFFE → m.Refuses m.word e → StepRefuses m e

theorem step_error_iff_refuses (hm : m.mode = .running) (hd : m.stack.depth ≤ stackDepth) :
    step m = (.error e, t) ↔ t = m ∧ m.StepRefuses e := by
  rw [step_running hm]
  rcases Nat.lt_or_ge 0xFFE m.pc.toNat with hpc | hpc
  · rw [fetch_of_gt hpc]
    constructor
    · intro h
      cases h
      exact ⟨rfl, .fetch hpc⟩
    · rintro ⟨rfl, h⟩
      cases h with
      | fetch => rfl
      | execute hle => omega
  · rw [fetch_of_le hpc]
    have hexecute := execute_error_iff_refuses (w := m.word) (e := e) (t := t) hd
    constructor
    · intro h
      have herror := Action.eq_error_of_map (x := Machine.execute m.word m) h
      exact ⟨(hexecute.mp herror).1, .execute hpc (hexecute.mp herror).2⟩
    · rintro ⟨rfl, h⟩
      cases h with
      | fetch hgt => omega
      | execute _ hw =>
        simp only [hexecute.mpr ⟨rfl, hw⟩]
        rfl

/-! ## Reachable machines -/

omit [Keypad κ] [ByteSource ρ] in
/-- Registers that do not exist and programs that do not fit are not in the table. -/
theorem Refuses.ne (h : m.Refuses w e) :
    (∀ index, e ≠ .noSuchRegister index) ∧ ∀ size max, e ≠ .programTooLarge size max := by
  cases h with
  | _ => exact ⟨fun _ => Fault.noConfusion, fun _ _ => Fault.noConfusion⟩

omit [Keypad κ] [ByteSource ρ] in
theorem StepRefuses.ne (h : m.StepRefuses e) :
    (∀ index, e ≠ .noSuchRegister index) ∧ ∀ size max, e ≠ .programTooLarge size max := by
  cases h with
  | fetch => exact ⟨fun _ => Fault.noConfusion, fun _ _ => Fault.noConfusion⟩
  | execute _ hw => exact hw.ne

theorem Intact.step_error_ne {m : Machine HexPad ρ} (h : m.Intact)
    (he : (Machine.step m).1 = .error e) :
    (∀ index, e ≠ .noSuchRegister index) ∧ ∀ size max, e ≠ .programTooLarge size max := by
  cases hm : m.mode with
  | running => exact ((step_error_iff_refuses hm h.depth_le).mp (Prod.ext he rfl)).2.ne
  | awaitingKey x =>
    obtain ⟨mode, hok⟩ := h.step_awaiting_ok hm
    cases he.symm.trans hok

/-- After any calls an opcode is refused for the reasons in the table and for no others. A step is
refused for those of the word it fetches, or when that word is not all in memory; while a key is
awaited it is not refused at all. -/
theorem refusals_after_runCalls (source : ρ) (calls : List Call) :
    let m := runCalls act (Machine.fresh .idle source) calls
    (∀ w e t, execute w m = (.error e, t) ↔ t = m ∧ m.Refuses w e) ∧
    (m.mode = .running → ∀ e t, step m = (.error e, t) ↔ t = m ∧ m.StepRefuses e) ∧
    (∀ x, m.mode = .awaitingKey x → ∃ mode, (step m).1 = .ok mode) ∧
    (∀ index, (∀ w, (execute w m).1 ≠ .error (.noSuchRegister index)) ∧
      (step m).1 ≠ .error (.noSuchRegister index)) ∧
    ∀ size max, (∀ w, (execute w m).1 ≠ .error (.programTooLarge size max)) ∧
      (step m).1 ≠ .error (.programTooLarge size max) := by
  intro m
  have h : m.Intact := intact_of_calls source calls
  have hexecute : ∀ w e t, execute w m = (.error e, t) ↔ t = m ∧ m.Refuses w e :=
    fun w e t => execute_error_iff_refuses h.depth_le
  have hne : ∀ w e, (execute w m).1 = .error e → _ :=
    fun w e he => ((hexecute w e _).mp (Prod.ext he rfl)).2.ne
  refine ⟨hexecute, ?_, fun x hm => h.step_awaiting_ok hm, ?_, ?_⟩
  · exact fun hm e t => step_error_iff_refuses hm h.depth_le
  · exact fun index =>
      ⟨fun w he => (hne w _ he).1 index rfl, fun he => (h.step_error_ne he).1 _ rfl⟩
  · exact fun size max =>
      ⟨fun w he => (hne w _ he).2 size max rfl, fun he => (h.step_error_ne he).2 _ _ rfl⟩

/-- With the index and the counter at the last address a sprite of one row is drawn, one of two
rows is not, two registers are not stored and no word is fetched; a wait goes on or ends. -/
theorem refusals_after_runCalls_at_end :
    let m := runCalls act (Machine.fresh .idle (WordCycle.ofList []))
      [.execute 0xAFFF, .execute 0x1FFF]
    let waiting := runCalls act (Machine.fresh .idle (WordCycle.ofList []))
      [.execute 0xF30A, .press 0xB]
    (∀ e t, execute 0xD001 m ≠ (.error e, t)) ∧
    execute 0xD002 m = (.error (.addressOutOfRange 0x1000), m) ∧
    execute 0xF155 m = (.error (.addressOutOfRange 0x1000), m) ∧
    m.mode = .running ∧ step m = (.error (.addressOutOfRange 0x1000), m) ∧
    waiting.mode = .awaitingKey 3 ∧ ∃ mode, (step waiting).1 = .ok mode := by
  intro m waiting
  have hindex : m.index = 0xFFF := rfl
  have hpc : m.pc = 0xFFF := rfl
  have hrunning : m.mode = .running := rfl
  have hwaiting : waiting.mode = .awaitingKey 3 := rfl
  obtain ⟨opcode, running, -⟩ := refusals_after_runCalls (WordCycle.ofList [])
    [.execute 0xAFFF, .execute 0x1FFF]
  obtain ⟨-, -, awaiting, -⟩ := refusals_after_runCalls (WordCycle.ofList [])
    [.execute 0xF30A, .press 0xB]
  refine ⟨?_, ?_, ?_, hrunning, ?_, hwaiting, awaiting 3 hwaiting⟩
  · intro e t h
    cases ((opcode 0xD001 e t).mp h).2 with
    | unknown hrow => exact hrow _ (.draw rfl)
    | underflow hw => cases hw
    | overflow hf | key hf | glyph hf | loadEnd hf => cases hf
    | sprite _ hend => exact absurd hend (by rw [hindex]; decide)
    | storeEnd hw | storeStart hw => cases hw.1
  · exact (opcode 0xD002 _ _).mpr ⟨rfl, .sprite rfl (by rw [hindex]; decide)⟩
  · exact (opcode 0xF155 _ _).mpr ⟨rfl, .storeEnd ⟨rfl, .inr ⟨rfl, rfl⟩⟩ (by rw [hindex]; decide)⟩
  · exact (running hrunning _ _).mpr ⟨rfl, .fetch (by rw [hpc]; decide)⟩

end Machine

end Chip8
