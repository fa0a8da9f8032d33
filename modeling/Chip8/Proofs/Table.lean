import Chip8.Instruction.Decode

/-!
# The instruction table

The table read row by row: for each instruction the words that stand for it, with the operands
taken from the word. Decoding finds the row of a word, and fails on a word that has none.
-/

namespace Chip8

/-- The rows of the table that a word is in. -/
inductive Opcode.Row (w : Opcode) : Instruction → Prop
  | clear : w = 0x00E0 → Row w .clear
  | ret : w = 0x00EE → Row w .ret
  | sys : w.family = 0x0 → w ≠ 0x00E0 → w ≠ 0x00EE → Row w (.sys w.addr)
  | jump : w.family = 0x1 → Row w (.jump w.addr)
  | call : w.family = 0x2 → Row w (.call w.addr)
  | skipEqualByte : w.family = 0x3 → Row w (.skipEqualByte w.x w.kk)
  | skipUnequalByte : w.family = 0x4 → Row w (.skipUnequalByte w.x w.kk)
  | skipEqual : w.family = 0x5 → w.n = 0x0 → Row w (.skipEqual w.x w.y)
  | loadByte : w.family = 0x6 → Row w (.loadByte w.x w.kk)
  | addByte : w.family = 0x7 → Row w (.addByte w.x w.kk)
  | move : w.family = 0x8 → w.n = 0x0 → Row w (.move w.x w.y)
  | or : w.family = 0x8 → w.n = 0x1 → Row w (.or w.x w.y)
  | and : w.family = 0x8 → w.n = 0x2 → Row w (.and w.x w.y)
  | xor : w.family = 0x8 → w.n = 0x3 → Row w (.xor w.x w.y)
  | add : w.family = 0x8 → w.n = 0x4 → Row w (.add w.x w.y)
  | sub : w.family = 0x8 → w.n = 0x5 → Row w (.sub w.x w.y)
  | shiftRight : w.family = 0x8 → w.n = 0x6 → Row w (.shiftRight w.x)
  | subFrom : w.family = 0x8 → w.n = 0x7 → Row w (.subFrom w.x w.y)
  | shiftLeft : w.family = 0x8 → w.n = 0xE → Row w (.shiftLeft w.x)
  | skipUnequal : w.family = 0x9 → w.n = 0x0 → Row w (.skipUnequal w.x w.y)
  | loadIndex : w.family = 0xA → Row w (.loadIndex w.addr)
  | jumpOffset : w.family = 0xB → Row w (.jumpOffset w.addr)
  | random : w.family = 0xC → Row w (.random w.x w.kk)
  | draw : w.family = 0xD → Row w (.draw w.x w.y w.n)
  | skipKeyDown : w.family = 0xE → w.kk = 0x9E → Row w (.skipKeyDown w.x)
  | skipKeyUp : w.family = 0xE → w.kk = 0xA1 → Row w (.skipKeyUp w.x)
  | loadDelay : w.family = 0xF → w.kk = 0x07 → Row w (.loadDelay w.x)
  | awaitKey : w.family = 0xF → w.kk = 0x0A → Row w (.awaitKey w.x)
  | setDelay : w.family = 0xF → w.kk = 0x15 → Row w (.setDelay w.x)
  | setSound : w.family = 0xF → w.kk = 0x18 → Row w (.setSound w.x)
  | addIndex : w.family = 0xF → w.kk = 0x1E → Row w (.addIndex w.x)
  | loadGlyph : w.family = 0xF → w.kk = 0x29 → Row w (.loadGlyph w.x)
  | storeDecimal : w.family = 0xF → w.kk = 0x33 → Row w (.storeDecimal w.x)
  | storeRegisters : w.family = 0xF → w.kk = 0x55 → Row w (.storeRegisters w.x)
  | loadRegisters : w.family = 0xF → w.kk = 0x65 → Row w (.loadRegisters w.x)

namespace Instruction

variable {w : Opcode} {i : Instruction}

theorem row_of_decodeArithmetic? (hf : w.family = 0x8)
    (h : decodeArithmetic? w.x w.y w.n = some i) : w.Row i := by
  unfold decodeArithmetic? at h
  split at h
  all_goals cases h
  case h_1 hn => exact .move hf hn
  case h_2 hn => exact .or hf hn
  case h_3 hn => exact .and hf hn
  case h_4 hn => exact .xor hf hn
  case h_5 hn => exact .add hf hn
  case h_6 hn => exact .sub hf hn
  case h_7 hn => exact .shiftRight hf hn
  case h_8 hn => exact .subFrom hf hn
  case h_9 hn => exact .shiftLeft hf hn

theorem row_of_decodeMisc? (hf : w.family = 0xF) (h : decodeMisc? w.x w.kk = some i) :
    w.Row i := by
  unfold decodeMisc? at h
  split at h
  all_goals cases h
  case h_1 hk => exact .loadDelay hf hk
  case h_2 hk => exact .awaitKey hf hk
  case h_3 hk => exact .setDelay hf hk
  case h_4 hk => exact .setSound hf hk
  case h_5 hk => exact .addIndex hf hk
  case h_6 hk => exact .loadGlyph hf hk
  case h_7 hk => exact .storeDecimal hf hk
  case h_8 hk => exact .storeRegisters hf hk
  case h_9 hk => exact .loadRegisters hf hk

theorem row_of_decode? (h : decode? w = some i) : w.Row i := by
  unfold decode? ofFields? at h
  split at h
  case h_1 hf =>
    split at h
    · cases h
      exact .clear (Opcode.eq_of_addr (v := 0x00E0) hf ‹_›)
    · rename_i hclear
      split at h
      · cases h
        exact .ret (Opcode.eq_of_addr (v := 0x00EE) hf ‹_›)
      · rename_i hret
        cases h
        exact .sys hf (fun hw => hclear (congrArg Opcode.addr hw))
          (fun hw => hret (congrArg Opcode.addr hw))
  case h_6 hf =>
    split at h
    · cases h
      exact .skipEqual hf ‹_›
    · cases h
  case h_9 hf => exact row_of_decodeArithmetic? hf h
  case h_10 hf =>
    split at h
    · cases h
      exact .skipUnequal hf ‹_›
    · cases h
  case h_15 hf =>
    split at h
    · cases h
      exact .skipKeyDown hf ‹_›
    · split at h
      · cases h
        exact .skipKeyUp hf ‹_›
      · cases h
  case h_16 hf => exact row_of_decodeMisc? hf h
  all_goals cases h
  case h_2 hf => exact .jump hf
  case h_3 hf => exact .call hf
  case h_4 hf => exact .skipEqualByte hf
  case h_5 hf => exact .skipUnequalByte hf
  case h_7 hf => exact .loadByte hf
  case h_8 hf => exact .addByte hf
  case h_11 hf => exact .loadIndex hf
  case h_12 hf => exact .jumpOffset hf
  case h_13 hf => exact .random hf
  case h_14 hf => exact .draw hf

theorem decode?_of_row (h : w.Row i) : decode? w = some i := by
  cases h with
  | clear h => subst h; rfl
  | ret h => subst h; rfl
  | sys hf hclear hret =>
    have hclear : w.addr ≠ 0x0E0 := fun ha => hclear (Opcode.eq_of_addr (v := 0x00E0) hf ha)
    have hret : w.addr ≠ 0x0EE := fun ha => hret (Opcode.eq_of_addr (v := 0x00EE) hf ha)
    simp [decode?, ofFields?, hf, hclear, hret]
  | skipKeyUp hf hk => simp [decode?, ofFields?, hf, hk]
  | _ => simp [decode?, ofFields?, decodeArithmetic?, decodeMisc?, *]

theorem decode?_eq_some_iff : decode? w = some i ↔ w.Row i :=
  ⟨row_of_decode?, decode?_of_row⟩

/-- A word is in one row at most. -/
theorem row_unique {j : Instruction} (hi : w.Row i) (hj : w.Row j) : i = j :=
  Option.some.inj ((decode?_of_row hi).symm.trans (decode?_of_row hj))

theorem decode?_eq_none_iff : decode? w = none ↔ ∀ i, ¬w.Row i := by
  rw [Option.eq_none_iff_forall_ne_some]
  exact forall_congr' fun i => not_congr decode?_eq_some_iff

end Instruction

end Chip8
