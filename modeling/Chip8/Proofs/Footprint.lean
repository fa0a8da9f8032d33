import Chip8.Proofs.Faults
import Chip8.Proofs.Nesting

/-!
# Footprints

Which components each opcode may write, read off the word and, for stores and calls, off the index
and the depth of the call stack. `counterAfter` is the table of the program counter. An opcode that
does not fault writes nothing outside its footprint and moves the counter as the table says; the
lemmas `…_of_row` show this for one component each, along the instruction table.
-/

namespace Chip8

/-! ## What a word may write -/

namespace Opcode

inductive WritesRegister (w : Opcode) : UInt8 → Prop
  | operand : w.family ∈ [0x6, 0x7, 0x8, 0xC] → WritesRegister w w.x
  | delay : w.family = 0xF → w.kk = 0x07 → WritesRegister w w.x
  | flag : w.family = 0x8 → w.n ∈ [0x4, 0x5, 0x6, 0x7, 0xE] → WritesRegister w 0xF
  | collision : w.family = 0xD → WritesRegister w 0xF
  | block {r : UInt8} : w.family = 0xF → w.kk = 0x65 → r ≤ w.x → WritesRegister w r

def WritesIndex (w : Opcode) : Prop :=
  w.family = 0xA ∨ w.family = 0xF ∧ (w.kk = 0x1E ∨ w.kk = 0x29)

def WritesScreen (w : Opcode) : Prop := w = 0x00E0 ∨ w.family = 0xD

end Opcode

namespace Machine

variable {κ ρ : Type} {m t : Machine κ ρ} {w : Opcode} {i : Instruction}

/-- The address is in the block that a word stores at the index. -/
def WritesByte (m : Machine κ ρ) (w : Opcode) (a : Nat) : Prop :=
  ∃ count, w.Stores count ∧ m.index.toNat ≤ a ∧ a < m.index.toNat + count

/-! ## Components -/

section
variable [ByteSource ρ]

theorem register_of_row {r : UInt8} (hrow : w.Row i) (h : ¬w.WritesRegister r) :
    (m.registersAfter i).cell r = m.v r := by
  have hne {x : UInt8} (hx : w.WritesRegister x) : r ≠ x := fun e => h (e ▸ hx)
  have hput {b : UInt8} (hx : w.WritesRegister w.x) : (m.registers.put w.x b).cell r = m.v r :=
    Registers.cell_put_of_ne w.toNat_x_lt (hne hx)
  have hflag {on : Bool} (hf : w.WritesRegister 0xF) : (m.registers.setFlag on).cell r = m.v r :=
    (Registers.cell_setFlag on r).trans (if_neg (hne hf))
  have hflagged {on : Bool} {b : UInt8} (hx : w.WritesRegister w.x) (hf : w.WritesRegister 0xF) :
      (m.flagged w.x on b).cell r = m.v r :=
    (Registers.cell_put_of_ne w.toNat_x_lt (hne hx)).trans (hflag hf)
  cases hrow with
  | loadByte hf | addByte hf | random hf => exact hput (.operand (by simp [hf]))
  | move hf | or hf | and hf | xor hf => exact hput (.operand (by simp [hf]))
  | add hf hn | sub hf hn | subFrom hf hn | shiftRight hf hn | shiftLeft hf hn =>
    exact hflagged (.operand (by simp [hf])) (.flag hf (by simp [hn]))
  | loadDelay hf hk => exact hput (.delay hf hk)
  | draw hf => exact hflag (.collision hf)
  | loadRegisters hf hk =>
    have hr : w.x.toNat < r.toNat := Nat.lt_of_not_le fun hle =>
      h (.block hf hk (UInt8.le_iff_toNat_le.mpr hle))
    have houtside := getElem?_overlay_of_outside m.registers.cells 0
      (m.memory.window m.index.toNat (w.x.toNat + 1)) (c := r.toNat)
      (.inr (by rw [Memory.length_window]; omega))
    exact congrArg (·.getD 0) houtside
  | _ => rfl

theorem source_of_row (hrow : w.Row i) (h : w.family ≠ 0xC) : m.sourceAfter i = m.source := by
  cases hrow with
  | random hf => exact absurd hf h
  | _ => rfl

end

theorem byte_of_row {a : Nat} (hrow : w.Row i) (h : ¬m.WritesByte w a) :
    (m.memoryAfter i).byte a = m.memory.byte a := by
  have hoverlay {bytes : List UInt8} (hw : w.Stores bytes.length) :
      Memory.byte ⟨overlay m.memory.bytes m.index.toNat bytes⟩ a = m.memory.byte a := by
    have houtside : a < m.index.toNat ∨ m.index.toNat + bytes.length ≤ a := by
      rcases Nat.lt_or_ge a m.index.toNat with hbelow | hfrom
      · exact .inl hbelow
      · exact .inr (Nat.le_of_not_lt fun hto => h ⟨_, hw, hfrom, hto⟩)
    exact Memory.byte_overlay_of_outside houtside
  cases hrow with
  | storeDecimal hf hk => exact hoverlay ⟨hf, .inl ⟨hk, rfl⟩⟩
  | storeRegisters hf hk =>
    exact hoverlay ⟨hf, .inr ⟨hk, Registers.length_take w.toNat_x_lt⟩⟩
  | _ => rfl

theorem index_of_row (hrow : w.Row i) (h : ¬w.WritesIndex) : m.indexAfter i = m.index := by
  cases hrow with
  | loadIndex hf => exact absurd (.inl hf) h
  | addIndex hf hk => exact absurd (.inr ⟨hf, .inl hk⟩) h
  | loadGlyph hf hk => exact absurd (.inr ⟨hf, .inr hk⟩) h
  | _ => rfl

theorem screen_of_row (hrow : w.Row i) (h : ¬w.WritesScreen) :
    m.screenAfter i = m.screen ∧ i.isDrawing = false := by
  cases hrow with
  | clear hw => exact absurd (.inl hw) h
  | draw hf => exact absurd (.inr hf) h
  | _ => exact ⟨rfl, rfl⟩

theorem delay_of_row (hrow : w.Row i) (h : ¬(w.family = 0xF ∧ w.kk = 0x15)) :
    m.delayAfter i = m.delay := by
  cases hrow with
  | setDelay hf hk => exact absurd ⟨hf, hk⟩ h
  | _ => rfl

theorem sound_of_row (hrow : w.Row i) (h : ¬(w.family = 0xF ∧ w.kk = 0x18)) :
    m.soundAfter i = m.sound := by
  cases hrow with
  | setSound hf hk => exact absurd ⟨hf, hk⟩ h
  | _ => rfl

theorem slot_of_row {j : Nat} (hrow : w.Row i) (h : ¬(w.family = 0x2 ∧ j = m.stack.depth)) :
    (m.stackAfter i).slots[j]? = m.stack.slots[j]? := by
  cases hrow with
  | call hf => exact Vector.getElem?_setIfInBounds_ne fun e => h ⟨hf, e.symm⟩
  | _ => rfl

theorem depth_of_row (hrow : w.Row i) (h : ¬(w.family = 0x2 ∨ w = 0x00EE)) :
    (m.stackAfter i).depth = m.stack.depth := by
  cases hrow with
  | ret hw => exact absurd (.inr hw) h
  | call hf => exact absurd (.inl hf) h
  | _ => rfl

theorem mode_of_row (hrow : w.Row i) (h : ¬(w.family = 0xF ∧ w.kk = 0x0A)) :
    m.modeAfter i = m.mode := by
  cases hrow with
  | awaitKey hf hk => exact absurd ⟨hf, hk⟩ h
  | _ => rfl

end Machine

/-! ## Opcodes -/

namespace Machine

variable {ρ : Type} {m t : Machine HexPad ρ} {w : Opcode} {i : Instruction}

/-- Asking whether a key is held does not change the keypad. -/
theorem pending_of_row (hrow : w.Row i) (h : ¬(w.family = 0xF ∧ w.kk = 0x0A)) :
    (m.keypadAfter i).pending = m.keypad.pending := by
  cases hrow with
  | awaitKey hf hk => exact absurd ⟨hf, hk⟩ h
  | _ => rfl

theorem held_keypadAfter (m : Machine HexPad ρ) (i : Instruction) :
    (m.keypadAfter i).held = m.keypad.held := by
  cases i with
  | _ => rfl

/-- Where the program counter goes, word by word; conditions are on the machine before. -/
def counterAfter (m : Machine HexPad ρ) (w : Opcode) : UInt16 :=
  match w.family with
  | 0x0 => if w = 0x00EE then m.stack.frames.getLastD 0 + 2 else m.pc + 2
  | 0x1 | 0x2 => w.addr
  | 0x3 => if m.v w.x = w.kk then m.pc + 4 else m.pc + 2
  | 0x4 => if m.v w.x ≠ w.kk then m.pc + 4 else m.pc + 2
  | 0x5 => if m.v w.x = m.v w.y then m.pc + 4 else m.pc + 2
  | 0x9 => if m.v w.x ≠ m.v w.y then m.pc + 4 else m.pc + 2
  | 0xB => w.addr + (m.v 0).toUInt16
  | 0xE =>
    if w.kk = 0x9E then if m.keypad.isHeld (m.v w.x) then m.pc + 4 else m.pc + 2
    else if m.keypad.isHeld (m.v w.x) then m.pc + 2 else m.pc + 4
  | 0xF => if w.kk = 0x0A then m.pc else m.pc + 2
  | _ => m.pc + 2

theorem target_skipIf (condition : Bool) (pc : UInt16) :
    (Flow.skipIf condition).target pc = if condition then pc + 4 else pc + 2 := by
  cases condition with
  | true => rfl
  | false => rfl

theorem target_of_row (hrow : w.Row i) (hf : m.fault? i = none) :
    (m.flow i).target m.pc = m.counterAfter w := by
  unfold counterAfter
  cases hrow with
  | ret hw =>
    obtain ⟨h1, h2⟩ := depth_of_fault?_ret hf
    subst hw
    rw [CallStack.frames_popped h1 h2, List.getLastD_concat]
    rfl
  | clear hw =>
    subst hw
    rfl
  | sys hw hclear hret =>
    simp only [hw, if_neg hret]
    rfl
  | skipEqualByte hw | skipUnequalByte hw | skipEqual hw | skipUnequal hw =>
    simp only [hw, flow, target_skipIf, beq_iff_eq, bne_iff_ne]
  | skipKeyDown hw hk =>
    simp only [hw, hk, flow, target_skipIf]
    rfl
  | skipKeyUp hw hk =>
    simp only [hw, hk, flow, target_skipIf, Keypad.isDown]
    cases m.keypad.isHeld (m.v w.x) with
    | true => rfl
    | false => rfl
  | awaitKey hw hk =>
    simp only [hw, hk]
    rfl
  | _ =>
    simp only [*]
    rfl

/-- What an opcode leaves as it was, and where it sends the program counter. -/
structure Footprint (m : Machine HexPad ρ) (w : Opcode) (t : Machine HexPad ρ) : Prop where
  registers : ∀ r, ¬w.WritesRegister r → t.v r = m.v r
  memory : ∀ a, ¬m.WritesByte w a → t.memory.byte a = m.memory.byte a
  index : ¬w.WritesIndex → t.index = m.index
  screen : ¬w.WritesScreen → t.screen = m.screen ∧ t.redraw = m.redraw
  delay : ¬(w.family = 0xF ∧ w.kk = 0x15) → t.delay = m.delay
  sound : ¬(w.family = 0xF ∧ w.kk = 0x18) → t.sound = m.sound
  /-- A return leaves the slot of its frame as it was. -/
  slots : ∀ j, ¬(w.family = 0x2 ∧ j = m.stack.depth) → t.stack.slots[j]? = m.stack.slots[j]?
  depth : ¬(w.family = 0x2 ∨ w = 0x00EE) → t.stack.depth = m.stack.depth
  source : w.family ≠ 0xC → t.source = m.source
  wait : ¬(w.family = 0xF ∧ w.kk = 0x0A) →
    t.mode = m.mode ∧ t.keypad.pending = m.keypad.pending
  held : t.keypad.held = m.keypad.held
  pc : t.pc = m.counterAfter w

variable [ByteSource ρ]

/-- Every opcode that succeeds keeps to its footprint, on every machine. -/
theorem footprint_of_execute_ok (h : execute w m = (.ok (), t)) : m.Footprint w t := by
  obtain ⟨i, hd, hf, rfl⟩ := execute_ok_iff.mp h
  have hrow := Instruction.row_of_decode? hd
  exact {
    registers := fun r hr => register_of_row hrow hr
    memory := fun a ha => byte_of_row hrow ha
    index := index_of_row hrow
    screen := by
      intro hs
      obtain ⟨hscreen, hdrawing⟩ := screen_of_row (m := m) hrow hs
      refine ⟨hscreen, ?_⟩
      show (i.isDrawing || m.redraw) = m.redraw
      rw [hdrawing, Bool.false_or]
    delay := delay_of_row hrow
    sound := sound_of_row hrow
    slots := fun j hj => slot_of_row hrow hj
    depth := depth_of_row hrow
    source := source_of_row hrow
    wait := fun hw => ⟨mode_of_row hrow hw, pending_of_row hrow hw⟩
    held := held_keypadAfter m i
    pc := target_of_row hrow hf }

/-- Storing two registers leaves the index and the byte behind them as they were. -/
theorem footprint_of_execute_ok_store :
    let m := { Machine.fresh HexPad.idle (WordCycle.ofList []) with index := 0x300 }
    ∃ t, execute 0xF155 m = (.ok (), t) ∧ m.Footprint 0xF155 t ∧ t.index = m.index ∧
      t.memory.byte 0x302 = m.memory.byte 0x302 ∧ t.pc = 0x202 := by
  intro m
  have hok : execute 0xF155 m = (.ok (), m.executed (.storeRegisters 1)) :=
    execute_ok_iff.mpr ⟨_, rfl, rfl, rfl⟩
  have hfootprint := footprint_of_execute_ok hok
  refine ⟨_, hok, hfootprint, hfootprint.index ?_, hfootprint.memory 0x302 ?_, hfootprint.pc⟩
  · rintro (hf | ⟨-, hk | hk⟩)
    · cases hf
    · cases hk
    · cases hk
  · rintro ⟨count, ⟨-, ⟨hk, -⟩ | ⟨-, rfl⟩⟩, -, hlt⟩
    · cases hk
    · exact absurd hlt (by decide)

end Machine

end Chip8
