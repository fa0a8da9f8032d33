import Chip8.Fault
import Chip8.Platform

/-!
# Memory

4096 bytes with the font at 0x000. Every byte can be read; only the program area, from 0x200 on,
can be written.
-/

namespace Chip8

structure Memory where
  bytes : Vector UInt8 memorySize
  deriving DecidableEq

namespace Memory

/-- The font sheet, then zeros. -/
def fresh : Memory where
  bytes := Vector.ofFn fun a => fontSheet.getD a 0

instance : Inhabited Memory := ⟨fresh⟩

def read (m : Memory) (a : Nat) : Except Fault UInt8 :=
  match m.bytes[a]? with
  | some b => .ok b
  | none => .error (.addressOutOfRange a)

/-- The big-endian word at `a`; a fault names the first byte that cannot be read. -/
def readWord (m : Memory) (a : Nat) : Except Fault UInt16 := do
  let high ← m.read a
  let low ← m.read (a + 1)
  return UInt16.ofNat (256 * high.toNat + low.toNat)

/-- The `count` bytes from `a` on; a fault names the last of them. -/
def slice (m : Memory) (a count : Nat) : Except Fault (List UInt8) :=
  if a + count ≤ memorySize then .ok (m.bytes.extract a (a + count)).toList
  else .error (.addressOutOfRange (a + count - 1))

def write (m : Memory) (a : Nat) (b : UInt8) : Except Fault Memory :=
  if h : programStart ≤ a ∧ a ≤ programEnd then
    .ok ⟨m.bytes.set a b (Nat.lt_succ_of_le h.2)⟩
  else .error (.addressOutOfRange a)

/-- Copies a program to 0x200; bytes behind its end stay as they were. -/
def load (m : Memory) (program : Array UInt8) : Except Fault Memory :=
  if program.size ≤ programCapacity then
    .ok ⟨m.bytes.mapIdx fun a b =>
      if programStart ≤ a then program.getD (a - programStart) b else b⟩
  else .error (.programTooLarge program.size programCapacity)

/-! ## Reading after a change -/

theorem read_of_lt (m : Memory) {a : Nat} (h : a < memorySize) : m.read a = .ok m.bytes[a] := by
  unfold read
  rw [Vector.getElem?_eq_getElem h]

theorem read_of_ge (m : Memory) {a : Nat} (h : memorySize ≤ a) :
    m.read a = .error (.addressOutOfRange a) := by
  unfold read
  rw [Vector.getElem?_eq_none h]

theorem read_eq_ok_iff {m : Memory} {a : Nat} {b : UInt8} :
    m.read a = .ok b ↔ ∃ h : a < memorySize, m.bytes[a] = b := by
  by_cases h : a < memorySize
  · rw [read_of_lt m h]
    exact ⟨fun e => ⟨h, Except.ok.inj e⟩, fun ⟨_, e⟩ => congrArg Except.ok e⟩
  · rw [read_of_ge m (Nat.le_of_not_lt h)]
    exact ⟨fun e => (nomatch e), fun ⟨h', _⟩ => absurd h' h⟩

theorem write_eq_ok_iff {m m' : Memory} {a : Nat} {b : UInt8} :
    m.write a b = .ok m' ↔
      ∃ h : programStart ≤ a ∧ a ≤ programEnd, m' = ⟨m.bytes.set a b (Nat.lt_succ_of_le h.2)⟩ := by
  unfold write
  split
  · rename_i h
    exact ⟨fun e => ⟨h, (Except.ok.inj e).symm⟩, fun ⟨_, e⟩ => e ▸ rfl⟩
  · rename_i h
    exact ⟨fun e => (nomatch e), fun ⟨h', _⟩ => absurd h' h⟩

theorem write_eq_error_iff {m : Memory} {a : Nat} {b : UInt8} {e : Fault} :
    m.write a b = .error e ↔
      ¬(programStart ≤ a ∧ a ≤ programEnd) ∧ e = .addressOutOfRange a := by
  unfold write
  split
  · rename_i h
    exact ⟨fun e => (nomatch e), fun ⟨h', _⟩ => absurd h h'⟩
  · rename_i h
    exact ⟨fun e => ⟨h, (Except.error.inj e).symm⟩, fun ⟨_, e⟩ => e ▸ rfl⟩

theorem read_write {m m' : Memory} {a : Nat} {b : UInt8} (h : m.write a b = .ok m') (c : Nat) :
    m'.read c = if c = a then .ok b else m.read c := by
  obtain ⟨ha, rfl⟩ := write_eq_ok_iff.mp h
  have ha' : a < memorySize := Nat.lt_succ_of_le ha.2
  by_cases hc : c < memorySize
  · rw [read_of_lt _ hc, read_of_lt _ hc]
    by_cases hca : c = a
    · subst hca
      simp
    · rw [if_neg hca, Vector.getElem_set_ne _ _ (Ne.symm hca)]
  · have hca : c ≠ a := fun e => hc (e ▸ ha')
    rw [if_neg hca, read_of_ge _ (Nat.le_of_not_lt hc), read_of_ge _ (Nat.le_of_not_lt hc)]

theorem load_eq_ok_iff {m m' : Memory} {p : Array UInt8} :
    m.load p = .ok m' ↔ p.size ≤ programCapacity ∧
      m' = ⟨m.bytes.mapIdx fun a b =>
        if programStart ≤ a then p.getD (a - programStart) b else b⟩ := by
  unfold load
  split
  · rename_i h
    exact ⟨fun e => ⟨h, (Except.ok.inj e).symm⟩, fun ⟨_, e⟩ => e ▸ rfl⟩
  · rename_i h
    exact ⟨fun e => (nomatch e), fun ⟨h', _⟩ => absurd h' h⟩

theorem getElem_load {m m' : Memory} {p : Array UInt8} (h : m.load p = .ok m') {a : Nat}
    (ha : a < memorySize) :
    m'.bytes[a] = if programStart ≤ a then p.getD (a - programStart) m.bytes[a]
      else m.bytes[a] := by
  obtain ⟨_, rfl⟩ := load_eq_ok_iff.mp h
  simp

end Memory

/-- Where the font keeps the glyph of a hexadecimal digit. -/
def glyphAddress (digit : UInt8) : Except Fault UInt16 :=
  if digit ≤ 0xF then .ok (UInt16.ofNat (glyphSize * digit.toNat)) else .error (.noSuchGlyph digit)

end Chip8
