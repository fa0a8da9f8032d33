import Chip8.CallStack
import Chip8.Memory
import Chip8.Registers

/-!
# Cells without refusals

Reads and writes that are total: a place outside reads as zero and is not written. Where an access
is allowed it is one of these, so what an instruction does can be said without its refusals.
`overlay` lays a block of bytes over registers or memory.
-/

namespace Chip8

/-! ## Blocks -/

/-- The cells with `bytes` from place `a` on. -/
def overlay {n : Nat} (cells : Vector UInt8 n) (a : Nat) (bytes : List UInt8) : Vector UInt8 n :=
  cells.mapIdx fun c b => if a ≤ c then bytes.getD (c - a) b else b

section
variable {n : Nat} (cells : Vector UInt8 n) (a : Nat)

theorem getElem_overlay (bytes : List UInt8) {c : Nat} (h : c < n) :
    (overlay cells a bytes)[c] = if a ≤ c then bytes.getD (c - a) cells[c] else cells[c] := by
  simp [overlay]

/-- Cells before and behind the block stay as they are. -/
theorem getElem?_overlay_of_outside (bytes : List UInt8) {c : Nat}
    (h : c < a ∨ a + bytes.length ≤ c) : (overlay cells a bytes)[c]? = cells[c]? := by
  by_cases hc : c < n
  · rw [Vector.getElem?_eq_getElem hc, Vector.getElem?_eq_getElem hc, getElem_overlay]
    split
    · rw [List.getD_eq_getElem?_getD, List.getElem?_eq_none (by omega), Option.getD_none]
    · rfl
  · rw [Vector.getElem?_eq_none (Nat.le_of_not_lt hc),
      Vector.getElem?_eq_none (Nat.le_of_not_lt hc)]

theorem getElem?_overlay_of_inside (bytes : List UInt8) {j : Nat} (hj : j < bytes.length)
    (h : a + j < n) : (overlay cells a bytes)[a + j]? = bytes[j]? := by
  rw [Vector.getElem?_eq_getElem h, getElem_overlay, if_pos (Nat.le_add_right a j),
    Nat.add_sub_cancel_left, List.getD_eq_getElem?_getD, List.getElem?_eq_getElem hj,
    Option.getD_some]

theorem overlay_nil : overlay cells a [] = cells := by
  ext c hc
  simp [getElem_overlay]

theorem overlay_cons (b : UInt8) (bytes : List UInt8) (h : a < n) :
    overlay cells a (b :: bytes) = overlay (cells.set a b) (a + 1) bytes := by
  ext c hc
  rw [getElem_overlay, getElem_overlay]
  rcases Nat.lt_trichotomy c a with hlt | rfl | hgt
  · rw [if_neg (by omega), if_neg (by omega), Vector.getElem_set_ne _ _ (by omega)]
  · rw [if_pos (Nat.le_refl c), if_neg (by omega), Nat.sub_self, List.getD_cons_zero,
      Vector.getElem_set_self]
  · rw [if_pos (by omega), if_pos (by omega), Vector.getElem_set_ne _ _ (by omega)]
    obtain ⟨d, rfl⟩ : ∃ d, c = a + 1 + d := ⟨c - (a + 1), by omega⟩
    rw [show a + 1 + d - a = d + 1 by omega, show a + 1 + d - (a + 1) = d by omega,
      List.getD_cons_succ]

end

/-! ## Registers -/

namespace Registers

/-- The value of `Vx`. -/
def cell (v : Registers) (x : UInt8) : UInt8 := v.cells[x.toNat]?.getD 0

/-- `Vx := b` -/
def put (v : Registers) (x b : UInt8) : Registers := ⟨v.cells.setIfInBounds x.toNat b⟩

variable {v : Registers} {x : UInt8}

theorem get_eq (h : x.toNat < registerCount) : v.get x = .ok (v.cell x) := by
  rw [get_of_lt v h, cell, Vector.getElem?_eq_getElem h, Option.getD_some]

theorem set_eq (b : UInt8) (h : x.toNat < registerCount) : v.set x b = .ok (v.put x b) := by
  rw [set_of_lt v b h, put]
  congr 2
  ext c hc
  rw [Vector.getElem_set, Vector.getElem_setIfInBounds]

theorem cell_put (b y : UInt8) (h : x.toNat < registerCount) :
    (v.put x b).cell y = if y = x then b else v.cell y := by
  rw [cell, put, Vector.getElem?_setIfInBounds]
  by_cases hyx : y = x
  · rw [if_pos hyx, if_pos (by rw [hyx]), if_pos h, Option.getD_some]
  · have hne : x.toNat ≠ y.toNat := fun e => hyx (UInt8.toNat_inj.mp e.symm)
    rw [if_neg hyx, if_neg hne, cell]

theorem cell_put_self (b : UInt8) (h : x.toNat < registerCount) : (v.put x b).cell x = b := by
  rw [cell_put b x h, if_pos rfl]

theorem get_put_self (b : UInt8) (h : x.toNat < registerCount) : (v.put x b).get x = .ok b := by
  rw [get_eq h, cell_put_self b h]

theorem cell_put_of_ne {b y : UInt8} (h : x.toNat < registerCount) (hy : y ≠ x) :
    (v.put x b).cell y = v.cell y := by
  rw [cell_put b y h, if_neg hy]

theorem cell_setFlag (on : Bool) (y : UInt8) :
    (v.setFlag on).cell y = if y = 0xF then if on then 1 else 0 else v.cell y := by
  unfold cell setFlag
  by_cases hy : y = 0xF
  · have hflag : y.toNat = flagRegister := congrArg UInt8.toNat hy
    rw [if_pos hy, hflag, Vector.getElem?_set_self, Option.getD_some]
  · have hne : flagRegister ≠ y.toNat := fun e => hy (UInt8.toNat_inj.mp e.symm)
    rw [if_neg hy, Vector.getElem?_set_ne _ hne]

theorem length_take (h : x.toNat < registerCount) :
    (v.toList.take (x.toNat + 1)).length = x.toNat + 1 := by
  rw [List.length_take, toList, Vector.length_toList]
  exact Nat.min_eq_left h

end Registers

/-! ## Memory -/

namespace Memory

/-- The byte at `a`. -/
def byte (m : Memory) (a : Nat) : UInt8 := m.bytes[a]?.getD 0

/-- The `count` bytes from `a` on. -/
def window (m : Memory) (a count : Nat) : List UInt8 :=
  (List.range count).map fun j => m.byte (a + j)

theorem ext_byte {m m' : Memory} (h : ∀ a, m.byte a = m'.byte a) : m = m' := by
  obtain ⟨bytes⟩ := m
  obtain ⟨bytes'⟩ := m'
  congr
  ext a ha
  have hbyte := h a
  simp only [byte, Vector.getElem?_eq_getElem ha, Option.getD_some] at hbyte
  rw [hbyte]

variable (m : Memory) {a : Nat}

theorem read_eq (h : a < memorySize) : m.read a = .ok (m.byte a) := by
  rw [read_of_lt m h, byte, Vector.getElem?_eq_getElem h, Option.getD_some]

theorem window_succ (count : Nat) :
    m.window a (count + 1) = m.byte a :: m.window (a + 1) count := by
  simp only [window, List.range_succ_eq_map, List.map_cons, List.map_map, Nat.add_zero]
  congr 2
  funext j
  simp only [Function.comp_apply, Nat.succ_eq_add_one]
  congr 1
  omega

theorem length_window (count : Nat) : (m.window a count).length = count := by
  rw [window, List.length_map, List.length_range]

variable {m} in
theorem getD_window {count r : Nat} (h : r < count) :
    (m.window a count).getD r 0 = m.byte (a + r) := by
  simp [window, List.getD_eq_getElem?_getD, h]

theorem slice_eq {count : Nat} (h : a + count ≤ memorySize) :
    m.slice a count = .ok (m.window a count) := by
  rw [slice, if_pos h]
  congr 1
  apply List.ext_getElem
  · simp [window]
    omega
  · intro j h1 h2
    have hj : j < count := by simpa [window] using h2
    simp [window, byte, Vector.getElem?_eq_getElem (show a + j < memorySize by omega)]

theorem slice_eq_error {count : Nat} (h : memorySize < a + count) :
    m.slice a count = .error (.addressOutOfRange (a + count - 1)) := by
  rw [slice, if_neg (Nat.not_le.mpr h)]

theorem byte_overlay_of_inside {bytes : Vector UInt8 memorySize} {block : List UInt8} {j : Nat}
    (hj : j < block.length) (h : a + j < memorySize) :
    byte ⟨overlay bytes a block⟩ (a + j) = block[j]?.getD 0 := by
  rw [byte, getElem?_overlay_of_inside bytes a block hj h]

theorem byte_overlay_of_outside {bytes : Vector UInt8 memorySize} {block : List UInt8} {c : Nat}
    (h : c < a ∨ a + block.length ≤ c) :
    byte ⟨overlay bytes a block⟩ c = byte ⟨bytes⟩ c := by
  rw [byte, byte, getElem?_overlay_of_outside bytes a block h]

theorem write_eq (b : UInt8) (h1 : programStart ≤ a) (h2 : a < memorySize) :
    m.write a b = .ok ⟨m.bytes.set a b h2⟩ :=
  write_eq_ok_iff.mpr ⟨⟨h1, Nat.le_of_lt_succ h2⟩, rfl⟩

/-- A program that fits is laid over memory at its start. -/
theorem load_eq {program : Array UInt8} (h : program.size ≤ programCapacity) :
    m.load program = .ok ⟨overlay m.bytes programStart program.toList⟩ := by
  refine load_eq_ok_iff.mpr ⟨h, ?_⟩
  simp [overlay, Array.getD_eq_getD_getElem?, List.getD_eq_getElem?_getD]

theorem read_of_load {m m' : Memory} {program : Array UInt8} (h : m.load program = .ok m')
    {j : Nat} (hj : j < program.size) : m'.read (programStart + j) = .ok program[j] := by
  have hsize : program.size ≤ programCapacity := (load_eq_ok_iff.mp h).1
  have hlt : programStart + j < memorySize := by
    simp only [programCapacity, memorySize, programStart] at hsize ⊢
    omega
  rw [read_of_lt _ hlt, getElem_load h hlt, if_pos (Nat.le_add_right _ _), Nat.add_sub_cancel_left,
    Array.getD_eq_getD_getElem?, Array.getElem?_eq_getElem hj, Option.getD_some]

theorem read_of_load_outside {m m' : Memory} {program : Array UInt8} (h : m.load program = .ok m')
    (hout : a < programStart ∨ programStart + program.size ≤ a) : m'.read a = m.read a := by
  rcases Nat.lt_or_ge a memorySize with hlt | hge
  · rw [read_of_lt _ hlt, read_of_lt _ hlt, getElem_load h hlt]
    rcases hout with hbelow | habove
    · rw [if_neg (Nat.not_le.mpr hbelow)]
    · have hstart : programStart ≤ a := by omega
      have hnone : program[a - programStart]? = none := Array.getElem?_eq_none (by omega)
      rw [if_pos hstart, Array.getD_eq_getD_getElem?, hnone, Option.getD_none]
  · rw [read_of_ge _ hge, read_of_ge _ hge]

end Memory

/-! ## The call stack -/

namespace CallStack

/-- The newest frame. -/
def top (s : CallStack) : UInt16 := s.slots[s.depth - 1]?.getD 0

def pushed (s : CallStack) (a : UInt16) : CallStack :=
  ⟨s.slots.setIfInBounds s.depth a, s.depth + 1⟩

def popped (s : CallStack) : CallStack := { s with depth := s.depth - 1 }

theorem depth_of_top?_none {s : CallStack} (h : s.top? = none) : s.depth = 0 := by
  unfold top? at h
  split at h
  · assumption
  · cases h

theorem depth_of_top?_some {s : CallStack} {top : Nat} (h : s.top? = some top) :
    s.depth = top + 1 := by
  unfold top? at h
  split at h
  · cases h
  · cases h
    exact (Nat.sub_one_add_one ‹_›).symm

variable (s : CallStack)

theorem length_frames (h : s.depth ≤ stackDepth) : s.frames.length = s.depth := by
  rw [frames, List.length_take, Vector.length_toList]
  exact Nat.min_eq_left h

theorem push?_eq (a : UInt16) (h : s.depth < stackDepth) : s.push? a = some (s.pushed a) := by
  rw [push?, dif_pos h, pushed]
  congr 2
  ext c hc
  rw [Vector.getElem_set, Vector.getElem_setIfInBounds]

theorem pop?_eq (h1 : 0 < s.depth) (h2 : s.depth ≤ stackDepth) :
    s.pop? = some (s.top, s.popped) := by
  have hlt : s.depth - 1 < stackDepth := by omega
  simp [pop?, top?, top, popped, Nat.pos_iff_ne_zero.mp h1, Vector.getElem?_eq_getElem hlt]

theorem pop?_eq_none (h : ¬(0 < s.depth ∧ s.depth ≤ stackDepth)) : s.pop? = none := by
  by_cases h0 : s.depth = 0
  · simp [pop?, top?, h0]
  · have hge : stackDepth ≤ s.depth - 1 := by omega
    simp [pop?, top?, h0, Vector.getElem?_eq_none hge]

end CallStack

end Chip8
