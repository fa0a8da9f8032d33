import Chip8.Proofs.Calls
import Chip8.Proofs.Cells

/-!
# Memory as a bounded store

A byte of memory is what the last change that succeeded and covered it put there, and what was
there at the start if none did, however single writes and programs overlap. `read_of_puts` and
`read_of_not_puts` say what one change does to one byte and `read_of_not_covered` is the induction
over a history. The three readers see the same bytes, and each fault names an address that cannot be
read, or cannot be written.
-/

namespace Chip8.Memory

open Chip8.Action (runCalls runCalls_cons runCalls_append runCalls_concat Among among_cons)

/-! ## Changes -/

/-- What can be asked of a memory besides to read it. -/
inductive Change where
  | write (a : Nat) (b : UInt8)
  | load (program : Array UInt8)
  deriving DecidableEq, Repr

/-- The memory with the change made, if it can be made. -/
def Change.applied (m : Memory) : Change → Except Fault Memory
  | .write a b => m.write a b
  | .load program => m.load program

def act (change : Change) : Action Memory Unit := .change change.applied

/-- The change succeeds and puts `b` at `a`. -/
inductive Puts (m : Memory) : Change → Nat → UInt8 → Prop
  | write {a : Nat} {b : UInt8} : (act (.write a b) m).1 = .ok () → Puts m (.write a b) a b
  | load {program : Array UInt8} {j : Nat} (hj : j < program.size) :
      (act (.load program) m).1 = .ok () → Puts m (.load program) (programStart + j) program[j]

/-- One of the changes, made where those before it lead, puts a byte at `a`. -/
def Covered (m : Memory) (changes : List Change) (a : Nat) : Prop :=
  Among act (fun m change => ∃ b, m.Puts change a b) m changes

variable {m : Memory} {change : Change} {changes : List Change} {a : Nat} {b : UInt8} {e : Fault}

/-! ## One change -/

/-- A change that fails is not made. -/
theorem eq_of_act_error (h : (act change m).1 = .error e) : (act change m).2 = m :=
  Action.change_error (Prod.ext h rfl)

theorem act_write_ok_iff (m : Memory) (a : Nat) (b : UInt8) :
    (act (.write a b) m).1 = .ok () ↔ programStart ≤ a ∧ a ≤ programEnd := by
  constructor
  · intro h
    have hwrite : m.write a b = .ok (act (.write a b) m).2 := Action.change_ok h
    exact (write_eq_ok_iff.mp hwrite).1
  · intro h
    have hwrite := write_eq m b h.1 (Nat.lt_succ_of_le h.2)
    exact congrArg Prod.fst (Action.change_apply_ok hwrite)

theorem act_load_ok_iff (m : Memory) (program : Array UInt8) :
    (act (.load program) m).1 = .ok () ↔ program.size ≤ programCapacity := by
  constructor
  · intro h
    have hload : m.load program = .ok (act (.load program) m).2 := Action.change_ok h
    exact (load_eq_ok_iff.mp hload).1
  · intro h
    exact congrArg Prod.fst (Action.change_apply_ok (load_eq m h))

/-- A write that fails names its own address. -/
theorem eq_of_act_write_error (h : (act (.write a b) m).1 = .error e) :
    ¬(programStart ≤ a ∧ a ≤ programEnd) ∧ e = .addressOutOfRange a := by
  cases hw : m.write a b with
  | ok m' =>
    rw [act, Action.change_apply_ok hw] at h
    cases h
  | error f =>
    rw [act, Action.change_apply_error hw] at h
    cases h
    exact write_eq_error_iff.mp hw

theorem read_of_puts (h : m.Puts change a b) : (act change m).2.read a = .ok b := by
  cases h with
  | write hok =>
    have hwrite : m.write a b = .ok (act (.write a b) m).2 := Action.change_ok hok
    rw [read_write hwrite, if_pos rfl]
  | @load program j hj hok =>
    have hload : m.load program = .ok (act (.load program) m).2 := Action.change_ok hok
    exact read_of_load hload hj

theorem read_of_not_puts (h : ∀ b, ¬m.Puts change a b) : (act change m).2.read a = m.read a := by
  cases hr : (act change m).1 with
  | error e => rw [eq_of_act_error hr]
  | ok _ =>
    cases change with
    | write c b =>
      have hwrite : m.write c b = .ok (act (.write c b) m).2 := Action.change_ok hr
      have hne : a ≠ c := by
        rintro rfl
        exact h b (.write hr)
      rw [read_write hwrite, if_neg hne]
    | load program =>
      have hload : m.load program = .ok (act (.load program) m).2 := Action.change_ok hr
      apply read_of_load_outside hload
      -- inside the program the change would have put its byte
      by_cases hin : programStart ≤ a ∧ a < programStart + program.size
      · obtain ⟨j, rfl⟩ := Nat.exists_eq_add_of_le hin.1
        have hj : j < program.size := by omega
        exact absurd (.load hj hr) (h program[j])
      · omega

/-! ## Histories -/

theorem read_of_not_covered (h : ¬m.Covered changes a) :
    (runCalls act m changes).read a = m.read a := by
  induction changes generalizing m with
  | nil => rfl
  | cons change changes ih =>
    rw [Covered, among_cons, not_or] at h
    rw [runCalls_cons, ih h.2, read_of_not_puts (not_exists.mp h.1)]

/-- The last change that covers a byte decides it. -/
theorem read_of_last_puts {earlier later : List Change}
    (hputs : (runCalls act m earlier).Puts change a b)
    (hlast : ¬(runCalls act m (earlier ++ [change])).Covered later a) :
    (runCalls act m (earlier ++ change :: later)).read a = .ok b := by
  rw [runCalls_append, runCalls_cons, ← runCalls_concat, read_of_not_covered hlast,
    runCalls_concat, read_of_puts hputs]

theorem read_fresh (h : a < memorySize) : fresh.read a = .ok (fontSheet.getD a 0) := by
  rw [read_of_lt _ h, fresh, Vector.getElem_ofFn]

/-! ## Readers -/

theorem read_ok_iff (m : Memory) (a : Nat) : (∃ b, m.read a = .ok b) ↔ a < memorySize := by
  constructor
  · rintro ⟨b, h⟩
    exact (read_eq_ok_iff.mp h).1
  · intro h
    exact ⟨_, read_of_lt m h⟩

theorem readWord_of_read {high low : UInt8} (hhigh : m.read a = .ok high)
    (hlow : m.read (a + 1) = .ok low) :
    ∃ w, m.readWord a = .ok w ∧ w.toNat = 256 * high.toNat + low.toNat := by
  refine ⟨UInt16.ofNat (256 * high.toNat + low.toNat), ?_, ?_⟩
  · rw [readWord, hhigh, hlow]
    rfl
  · have := high.toNat_lt
    have := low.toNat_lt
    rw [UInt16.toNat_ofNat']
    omega

/-- A word that cannot be read fails as the first of its bytes that cannot be. -/
theorem readWord_of_error (h : m.read a = .error e ∨
    (∃ high, m.read a = .ok high) ∧ m.read (a + 1) = .error e) : m.readWord a = .error e := by
  rcases h with h | ⟨⟨high, hhigh⟩, h⟩
  · rw [readWord, h]
    rfl
  · rw [readWord, hhigh, h]
    rfl

theorem readWord_cases (m : Memory) (a : Nat) :
    (∃ high low, m.read a = .ok high ∧ m.read (a + 1) = .ok low) ∨
      ∃ e, m.readWord a = .error e ∧ (m.read a = .error e ∨ m.read (a + 1) = .error e) := by
  cases hhigh : m.read a with
  | error e => exact .inr ⟨e, readWord_of_error (.inl hhigh), .inl rfl⟩
  | ok high =>
    cases hlow : m.read (a + 1) with
    | error e => exact .inr ⟨e, readWord_of_error (.inr ⟨⟨high, hhigh⟩, hlow⟩), .inr rfl⟩
    | ok low => exact .inl ⟨high, low, rfl, rfl⟩

theorem readWord_ok_iff (m : Memory) (a : Nat) :
    (∃ w, m.readWord a = .ok w) ↔ (∃ b, m.read a = .ok b) ∧ ∃ b, m.read (a + 1) = .ok b := by
  constructor
  · rintro ⟨w, hw⟩
    rcases readWord_cases m a with ⟨high, low, hhigh, hlow⟩ | ⟨e, he, -⟩
    · exact ⟨⟨high, hhigh⟩, low, hlow⟩
    · rw [hw] at he
      cases he
  · rintro ⟨⟨high, hhigh⟩, low, hlow⟩
    obtain ⟨w, hw, -⟩ := readWord_of_read hhigh hlow
    exact ⟨w, hw⟩

theorem slice_ok_iff (m : Memory) (a count : Nat) :
    (∃ bytes, m.slice a count = .ok bytes) ↔ a + count ≤ memorySize := by
  rcases Nat.lt_or_ge memorySize (a + count) with hlt | hge
  · rw [slice_eq_error m hlt]
    exact ⟨fun ⟨_, h⟩ => (nomatch h), fun h => absurd h (Nat.not_le.mpr hlt)⟩
  · exact ⟨fun _ => hge, fun _ => ⟨_, slice_eq m hge⟩⟩

theorem bytes_of_slice {count : Nat} {bytes : List UInt8} (h : m.slice a count = .ok bytes) :
    bytes.length = count ∧ ∀ j (hj : j < bytes.length), m.read (a + j) = .ok bytes[j] := by
  have hle : a + count ≤ memorySize := (slice_ok_iff m a count).mp ⟨bytes, h⟩
  rw [slice_eq m hle] at h
  cases h
  refine ⟨length_window m count, ?_⟩
  intro j hj
  rw [length_window] at hj
  have hlt : a + j < memorySize := by omega
  rw [read_eq m hlt]
  simp [window]

/-! ## Faults -/

theorem out_of_range_of_read (h : m.read a = .error e) :
    ∃ c, memorySize ≤ c ∧ e = .addressOutOfRange c := by
  rcases Nat.lt_or_ge a memorySize with hlt | hge
  · rw [read_of_lt m hlt] at h
    cases h
  · rw [read_of_ge m hge] at h
    cases h
    exact ⟨a, hge, rfl⟩

theorem out_of_range_of_readWord (h : m.readWord a = .error e) :
    ∃ c, memorySize ≤ c ∧ e = .addressOutOfRange c := by
  rcases readWord_cases m a with ⟨high, low, hhigh, hlow⟩ | ⟨f, hf, hread⟩
  · obtain ⟨w, hw, -⟩ := readWord_of_read hhigh hlow
    rw [hw] at h
    cases h
  · rw [hf] at h
    cases h
    rcases hread with hread | hread
    · exact out_of_range_of_read hread
    · exact out_of_range_of_read hread

theorem out_of_range_of_slice {count : Nat} (h : m.slice a count = .error e) :
    ∃ c, memorySize ≤ c ∧ e = .addressOutOfRange c := by
  rcases Nat.lt_or_ge memorySize (a + count) with hlt | hge
  · rw [slice_eq_error m hlt] at h
    cases h
    exact ⟨_, Nat.le_sub_one_of_lt hlt, rfl⟩
  · rw [slice_eq m hge] at h
    cases h

/-! ## The store -/

/-- After any history of writes and loads on a fresh memory, whether or not they succeeded, each of
the 4096 bytes is what the last successful change that covers it put there, or the font and zeros
if none does. Which changes succeed hangs on the address or the size alone, and one that fails is
not made. Words and slices are made of the bytes that can be read, and are refused if one of them
cannot be; a fault of a reader names an address behind the end of memory, and one of a write an
address outside the program area. -/
theorem bytes_follow_history (changes : List Change) :
    let m := runCalls act fresh changes
    (∀ a, (∃ b, m.read a = .ok b) ↔ a < memorySize) ∧
    (∀ a b earlier change later, changes = earlier ++ change :: later →
      (runCalls act fresh earlier).Puts change a b →
      ¬(runCalls act fresh (earlier ++ [change])).Covered later a → m.read a = .ok b) ∧
    (∀ a < memorySize, ¬fresh.Covered changes a → m.read a = .ok (fontSheet.getD a 0)) ∧
    (∀ a b, (act (.write a b) m).1 = .ok () ↔ programStart ≤ a ∧ a ≤ programEnd) ∧
    (∀ program, (act (.load program) m).1 = .ok () ↔ program.size ≤ programCapacity) ∧
    (∀ change e, (act change m).1 = .error e → (act change m).2 = m) ∧
    (∀ a, (∃ w, m.readWord a = .ok w) ↔ (∃ b, m.read a = .ok b) ∧ ∃ b, m.read (a + 1) = .ok b) ∧
    (∀ a w high low, m.readWord a = .ok w → m.read a = .ok high → m.read (a + 1) = .ok low →
      w.toNat = 256 * high.toNat + low.toNat) ∧
    (∀ a count, (∃ bytes, m.slice a count = .ok bytes) ↔ a + count ≤ memorySize) ∧
    (∀ a count bytes, m.slice a count = .ok bytes → bytes.length = count ∧
      ∀ j (hj : j < bytes.length), m.read (a + j) = .ok bytes[j]) ∧
    (∀ a count e, m.read a = .error e ∨ m.readWord a = .error e ∨ m.slice a count = .error e →
      ∃ c, memorySize ≤ c ∧ e = .addressOutOfRange c) ∧
    (∀ a b e, (act (.write a b) m).1 = .error e →
      ∃ c, ¬(programStart ≤ c ∧ c ≤ programEnd) ∧ e = .addressOutOfRange c) := by
  intro m
  refine ⟨read_ok_iff m, ?_, ?_, act_write_ok_iff m, act_load_ok_iff m, fun _ _ => eq_of_act_error,
    readWord_ok_iff m, ?_, slice_ok_iff m, fun _ _ _ => bytes_of_slice, ?_, ?_⟩
  · rintro a b earlier change later rfl hputs hlast
    exact read_of_last_puts hputs hlast
  · intro a ha hnone
    exact (read_of_not_covered hnone).trans (read_fresh ha)
  · intro a w high low hw hhigh hlow
    obtain ⟨w', hw', hvalue⟩ := readWord_of_read hhigh hlow
    rw [hw] at hw'
    cases hw'
    exact hvalue
  · rintro a count e (h | h | h)
    · exact out_of_range_of_read h
    · exact out_of_range_of_readWord h
    · exact out_of_range_of_slice h
  · intro a b e h
    exact ⟨a, eq_of_act_write_error h⟩

end Chip8.Memory
