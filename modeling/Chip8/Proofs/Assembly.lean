import Mathlib.Data.List.Basic
import Chip8.Event
import Chip8.Proofs.Encoding
import Chip8.Proofs.KeyTexts

/-!
# Reading mnemonics back

The assembly text of an instruction read back: it is cut into words at blanks and commas, the first
word is the name, and every other one shows by its first characters what kind of operand it is.
Texts are therefore different for different instructions, also for operands that no opcode has, and
a trace tells which instruction was executed.
-/

namespace Chip8

/-! ## Numbers -/

namespace Numeral

theorem value_concat (radix : Nat) (ds : List Nat) (d : Nat) :
    value radix (ds ++ [d]) = radix * value radix ds + d :=
  List.foldl_append

end Numeral

namespace Hex

/-- The number written by hexadecimal digits. -/
def number (cs : List Char) : Nat := Numeral.value 16 (cs.filterMap value?)

theorem number_digits (case : Case) (n : Nat) : number (digits case n) = n := by
  induction n using Nat.strongRecOn with
  | ind n ih =>
    unfold digits
    split
    · rename_i h
      simp [number, value?_digit case h, Numeral.value]
    · rename_i h
      have hlast : (n % 16) < 16 := Nat.mod_lt n (by decide)
      have hfirst := ih (n / 16) (by omega)
      rw [number] at hfirst ⊢
      rw [List.filterMap_append, List.filterMap_cons_some (value?_digit case hlast),
        List.filterMap_nil, Numeral.value_concat, hfirst, Nat.div_add_mod]

theorem number_padded (case : Case) (width n : Nat) : number (padded case width n) = n := by
  have hzero : value? '0' = some 0 := rfl
  rw [padded, List.leftpad, number, List.filterMap_append,
    List.filterMap_replicate_of_some hzero, Numeral.value_zeros_append]
  exact number_digits case n

theorem exists_of_mem_padded {case : Case} {width n : Nat} {c : Char}
    (h : c ∈ padded case width n) : ∃ d < 16, c = digit case d := by
  have hdigits : ∀ n, c ∈ digits case n → ∃ d < 16, c = digit case d := by
    intro n
    induction n using Nat.strongRecOn with
    | ind n ih =>
      intro hc
      unfold digits at hc
      split at hc
      · rename_i hn
        exact ⟨n, hn, List.mem_singleton.mp hc⟩
      · rcases List.mem_append.mp hc with hc | hc
        · exact ih (n / 16) (by omega) hc
        · exact ⟨n % 16, Nat.mod_lt n (by decide), List.mem_singleton.mp hc⟩
  rw [padded, List.leftpad] at h
  rcases List.mem_append.mp h with hc | hc
  · exact ⟨0, by decide, (List.eq_of_mem_replicate hc).trans (digit_zero case).symm⟩
  · exact hdigits n hc

theorem length_padded_byte (case : Case) (b : UInt8) : (padded case 2 b.toNat).length = 2 := by
  have hb := b.toNat_lt
  have hlength : (digits case b.toNat).length ≤ 2 := by
    unfold digits
    split
    · simp
    · rw [digits, if_pos (by omega)]
      simp
  rw [padded, List.length_leftpad]
  omega

theorem length_padded_address (case : Case) (n : Nat) : 3 ≤ (padded case 3 n).length := by
  rw [padded, List.length_leftpad]
  exact Nat.le_max_left 3 _

end Hex

/-! ## Words -/

def isBreak (c : Char) : Bool := c == ' ' || c == ','

/-- The words of a text, between blanks and commas. -/
def words (cs : List Char) : List (List Char) := (cs.splitOnP isBreak).filter (· ≠ [])

/-- What the words of a mnemonic are written with. -/
def isMnemonicChar (c : Char) : Bool :=
  c.isUpper || c.isDigit || c == 'x' || c == '[' || c == ']'

def isWord (cs : List Char) : Bool := !cs.isEmpty && cs.all isMnemonicChar

theorem isWord_iff {cs : List Char} :
    isWord cs = true ↔ cs ≠ [] ∧ ∀ c ∈ cs, isMnemonicChar c = true := by
  simp [isWord]

theorem isWord_cons {c : Char} {cs : List Char} (hc : isMnemonicChar c = true)
    (h : isWord cs = true) : isWord (c :: cs) = true :=
  isWord_iff.mpr ⟨List.cons_ne_nil c cs, List.forall_mem_cons.mpr ⟨hc, (isWord_iff.mp h).2⟩⟩

theorem isMnemonicChar_of_mem_padded {width n : Nat} {c : Char}
    (h : c ∈ Hex.padded .upper width n) : isMnemonicChar c = true := by
  have hdigits : ∀ d < 16, isMnemonicChar (Hex.digit .upper d) = true := by decide
  obtain ⟨d, hd, rfl⟩ := Hex.exists_of_mem_padded h
  exact hdigits d hd

theorem isWord_padded (width n : Nat) : isWord (Hex.padded .upper width n) = true := by
  refine isWord_iff.mpr ⟨fun hnil => ?_, fun c hc => isMnemonicChar_of_mem_padded hc⟩
  rw [Hex.padded, List.leftpad, List.append_eq_nil_iff] at hnil
  exact Hex.digits_ne_nil .upper n hnil.2

theorem words_append_cons {c : Char} (hc : isBreak c = true) (xs ys : List Char) :
    words (xs ++ c :: ys) = words xs ++ words ys := by
  rw [words, List.splitOnP_append_cons xs ys hc, List.filter_append]
  rfl

theorem words_cons {c : Char} (hc : isBreak c = true) (cs : List Char) :
    words (c :: cs) = words cs :=
  words_append_cons hc [] cs

theorem words_of_isWord {cs : List Char} (h : isWord cs = true) : words cs = [cs] := by
  obtain ⟨hne, hchars⟩ := isWord_iff.mp h
  have hletters : ∀ c ∈ cs, isBreak c = false := by
    intro c hc
    have hchar := hchars c hc
    by_contra hbreak
    simp only [isBreak, Bool.or_eq_false_iff, beq_eq_false_iff_ne, not_and_or, not_not] at hbreak
    rcases hbreak with rfl | rfl
    · cases hchar
    · cases hchar
  rw [words, List.splitOnP_eq_singleton hletters]
  simp [hne]

theorem head?_ne_of_isWord {cs : List Char} (h : isWord cs = true) : cs.head? ≠ some 'v' := by
  intro hv
  cases (isWord_iff.mp h).2 'v' (List.mem_of_mem_head? hv)

theorem words_intercalate {ws : List (List Char)} (h : ∀ w ∈ ws, isWord w = true) :
    words ([',', ' '].intercalate ws) = ws := by
  induction ws with
  | nil => rfl
  | cons w ws ih =>
    obtain ⟨hw, hws⟩ := List.forall_mem_cons.mp h
    cases ws with
    | nil => rw [List.intercalate_singleton, words_of_isWord hw]
    | cons w' ws =>
      rw [List.intercalate_cons_cons, List.append_assoc, List.cons_append,
        words_append_cons (by decide), List.singleton_append, words_cons (by decide), ih hws,
        words_of_isWord hw]
      rfl

/-- A text that begins with a letter has a word that begins with it. -/
theorem exists_words_cons {c : Char} (hc : isBreak c = false) (cs : List Char) :
    ∃ w ws, words (c :: cs) = (c :: w) :: ws := by
  obtain ⟨w, ws, hsplit⟩ := List.exists_cons_of_ne_nil (List.splitOnP_ne_nil isBreak cs)
  refine ⟨w, ws.filter (· ≠ []), ?_⟩
  rw [words, List.splitOnP_cons_eq_if_modifyHead, hc, hsplit]
  rfl

namespace Instruction

/-! ## Operands -/

namespace Operand

/-- The operand that is written so. -/
def read? (cs : List Char) : Option Operand :=
  if cs.all Char.isDigit then some (.rows (UInt8.ofNat (Nat.ofDigitChars 10 cs 0)))
  else match cs with
    | 'V' :: ds => some (.register (UInt8.ofNat (Hex.number ds)))
    | ['0', 'x', a, b] => some (.byte (UInt8.ofNat (Hex.number [a, b])))
    | '0' :: 'x' :: ds => some (.address (UInt16.ofNat (Hex.number ds)))
    | ['I'] => some .index
    | ['[', 'I', ']'] => some .block
    | ['D', 'T'] => some .delay
    | ['S', 'T'] => some .sound
    | ['K'] => some .key
    | ['F'] => some .glyph
    | ['B'] => some .decimal
    | _ => none

theorem toList_text_register (x : UInt8) :
    (register x).text.toList = 'V' :: Hex.padded .upper 1 x.toNat := by
  have hletter : "V".toList = ['V'] := rfl
  rw [text, Hex.upper, String.toList_append, hletter, String.toList_ofList]
  rfl

theorem toList_marked (width n : Nat) :
    (Hex.marked width n).toList = '0' :: 'x' :: Hex.padded .upper width n := by
  have hmarker : "0x".toList = ['0', 'x'] := rfl
  rw [Hex.marked, Hex.upper, String.toList_append, hmarker, String.toList_ofList]
  rfl

theorem toList_text_rows (n : UInt8) : (rows n).text.toList = Nat.toDigits 10 n.toNat :=
  Nat.toList_repr

theorem read?_text (o : Operand) : read? o.text.toList = some o := by
  cases o with
  | register x =>
    rw [toList_text_register]
    show some (register (UInt8.ofNat (Hex.number (Hex.padded .upper 1 x.toNat)))) = _
    rw [Hex.number_padded, UInt8.ofNat_toNat]
  | byte b =>
    obtain ⟨c, d, hdigits⟩ := List.length_eq_two.mp (Hex.length_padded_byte .upper b)
    rw [text, toList_marked, hdigits]
    show some (byte (UInt8.ofNat (Hex.number [c, d]))) = _
    rw [← hdigits, Hex.number_padded, UInt8.ofNat_toNat]
  | address a =>
    have hlength := Hex.length_padded_address .upper a.toNat
    have hnumber := Hex.number_padded .upper 3 a.toNat
    rw [text, toList_marked]
    match hdigits : Hex.padded .upper 3 a.toNat with
    | [] | [_] | [_, _] =>
      rw [hdigits] at hlength
      simp at hlength
    | c :: d :: e :: ds =>
      show some (address (UInt16.ofNat (Hex.number (c :: d :: e :: ds)))) = _
      rw [← hdigits, hnumber, UInt16.ofNat_toNat]
  | rows n =>
    have hdigits : (Nat.toDigits 10 n.toNat).all Char.isDigit = true :=
      List.all_eq_true.mpr fun c hc => Nat.isDigit_of_mem_toDigits (by decide) (by decide) hc
    rw [toList_text_rows]
    unfold read?
    rw [if_pos hdigits, Nat.ofDigitChars_ten_toDigits, UInt8.ofNat_toNat]
  | _ => rfl

theorem isWord_text (o : Operand) : isWord o.text.toList = true := by
  cases o with
  | register x =>
    rw [toList_text_register]
    exact isWord_cons rfl (isWord_padded 1 x.toNat)
  | byte b =>
    rw [text, toList_marked]
    exact isWord_cons rfl (isWord_cons rfl (isWord_padded 2 b.toNat))
  | address a =>
    rw [text, toList_marked]
    exact isWord_cons rfl (isWord_cons rfl (isWord_padded 3 a.toNat))
  | rows n =>
    rw [toList_text_rows]
    refine isWord_iff.mpr ⟨Nat.toDigits_ne_nil, fun c hc => ?_⟩
    have hdigit : c.isDigit = true := Nat.isDigit_of_mem_toDigits (by decide) (by decide) hc
    rw [isMnemonicChar, hdigit]
    simp
  | _ => rfl

end Operand

/-! ## Instructions -/

/-- The instruction with a name and operands, if there is one. -/
def ofParts? : String → List Operand → Option Instruction
  | "CLS", [] => some .clear
  | "RET", [] => some .ret
  | "SYS", [.address a] => some (.sys a)
  | "JP", [.address a] => some (.jump a)
  | "JP", [.register 0, .address a] => some (.jumpOffset a)
  | "CALL", [.address a] => some (.call a)
  | "SE", [.register x, .byte kk] => some (.skipEqualByte x kk)
  | "SE", [.register x, .register y] => some (.skipEqual x y)
  | "SNE", [.register x, .byte kk] => some (.skipUnequalByte x kk)
  | "SNE", [.register x, .register y] => some (.skipUnequal x y)
  | "LD", [.register x, .byte kk] => some (.loadByte x kk)
  | "LD", [.register x, .register y] => some (.move x y)
  | "LD", [.index, .address a] => some (.loadIndex a)
  | "LD", [.register x, .delay] => some (.loadDelay x)
  | "LD", [.register x, .key] => some (.awaitKey x)
  | "LD", [.delay, .register x] => some (.setDelay x)
  | "LD", [.sound, .register x] => some (.setSound x)
  | "LD", [.glyph, .register x] => some (.loadGlyph x)
  | "LD", [.decimal, .register x] => some (.storeDecimal x)
  | "LD", [.block, .register x] => some (.storeRegisters x)
  | "LD", [.register x, .block] => some (.loadRegisters x)
  | "ADD", [.register x, .byte kk] => some (.addByte x kk)
  | "ADD", [.register x, .register y] => some (.add x y)
  | "ADD", [.index, .register x] => some (.addIndex x)
  | "OR", [.register x, .register y] => some (.or x y)
  | "AND", [.register x, .register y] => some (.and x y)
  | "XOR", [.register x, .register y] => some (.xor x y)
  | "SUB", [.register x, .register y] => some (.sub x y)
  | "SUBN", [.register x, .register y] => some (.subFrom x y)
  | "SHR", [.register x] => some (.shiftRight x)
  | "SHL", [.register x] => some (.shiftLeft x)
  | "RND", [.register x, .byte kk] => some (.random x kk)
  | "DRW", [.register x, .register y, .rows n] => some (.draw x y n)
  | "SKP", [.register x] => some (.skipKeyDown x)
  | "SKNP", [.register x] => some (.skipKeyUp x)
  | _, _ => none

/-- The instruction written by words. -/
def ofWords? : List (List Char) → Option Instruction
  | [] => none
  | name :: operands => do ofParts? (String.ofList name) (← operands.mapM Operand.read?)

theorem ofParts?_parts (i : Instruction) : ofParts? i.name i.operands = some i := by
  cases i <;> rfl

theorem isWord_name (i : Instruction) : isWord i.name.toList = true := by
  cases i <;> simp only [name] <;> rfl

/-- The words of the mnemonic. -/
def parts (i : Instruction) : List (List Char) :=
  i.name.toList :: i.operands.map fun o => o.text.toList

theorem isWord_of_mem_parts {i : Instruction} {w : List Char} (h : w ∈ i.parts) :
    isWord w = true := by
  rcases List.mem_cons.mp h with rfl | h
  · exact i.isWord_name
  · obtain ⟨o, -, rfl⟩ := List.mem_map.mp h
    exact o.isWord_text

theorem ofWords?_parts (i : Instruction) : ofWords? i.parts = some i := by
  have hread : ∀ os : List Operand,
      (os.map fun o => o.text.toList).mapM Operand.read? = some os := by
    intro os
    induction os with
    | nil => rfl
    | cons o os ih => exact mapM_cons_eq_some.mpr ⟨o, os, o.read?_text, ih, rfl⟩
  rw [parts, ofWords?, hread, String.ofList_toList]
  exact i.ofParts?_parts

theorem words_mnemonic (i : Instruction) : words i.mnemonic.toList = i.parts := by
  have hname := i.isWord_name
  rw [parts, mnemonic]
  split
  · rename_i hops
    rw [hops, words_of_isWord hname, List.map_nil]
  · have hblank : " ".toList = [' '] := rfl
    have hcomma : ", ".toList = [',', ' '] := rfl
    rw [String.toList_append, String.toList_append, hblank, String.toList_intercalate, hcomma,
      List.append_assoc, List.singleton_append, words_append_cons (by decide),
      words_of_isWord hname, List.map_map, words_intercalate]
    · rfl
    · intro w hw
      obtain ⟨o, -, rfl⟩ := List.mem_map.mp hw
      exact o.isWord_text

/-- Instructions are told apart by their texts, with any operands. -/
theorem mnemonic_inj {i j : Instruction} : i.mnemonic = j.mnemonic ↔ i = j := by
  constructor
  · intro h
    apply Option.some.inj
    rw [← ofWords?_parts i, ← words_mnemonic, h, words_mnemonic, ofWords?_parts]
  · rintro rfl
    rfl

/-! ## Traces -/

/-- The instruction that a trace shows, behind the counter and the opcode and in front of the
registers, whose word is the first that begins with `v`. -/
def ofTrace? (text : String) : Option Instruction :=
  ofWords? (((words text.toList).drop 2).takeWhile (·.head? ≠ some 'v'))

theorem toList_trace (pc opcode : UInt16) (i : Instruction) (v : Registers) (index : UInt16) :
    ∃ rest, (Event.executing pc opcode i v index).text.toList =
      Hex.padded .upper 4 pc.toNat ++ ' ' :: (Hex.padded .upper 4 opcode.toNat ++
        ' ' :: (i.mnemonic.toList ++ ' ' :: 'v' :: rest)) := by
  have hblank : " ".toList = [' '] := rfl
  have hopen : "v[".toList = ['v', '['] := rfl
  obtain ⟨cells, last, htext⟩ : ∃ cells last, (Event.executing pc opcode i v index).text =
      " ".intercalate [Hex.upper 4 pc.toNat, Hex.upper 4 opcode.toNat, i.mnemonic,
        "v[" ++ cells ++ "]", last] := by
    unfold Event.text
    exact ⟨_, _, rfl⟩
  rw [htext, String.toList_intercalate, hblank]
  simp only [Hex.upper, List.map_cons, List.intercalate_cons_cons, String.toList_append,
    String.toList_ofList, hopen, List.append_assoc, List.cons_append, List.nil_append]
  exact ⟨_, rfl⟩

theorem ofTrace?_text (pc opcode : UInt16) (i : Instruction) (v : Registers) (index : UInt16) :
    ofTrace? (Event.executing pc opcode i v index).text = some i := by
  obtain ⟨rest, htext⟩ := toList_trace pc opcode i v index
  obtain ⟨w, ws, hregisters⟩ := exists_words_cons (c := 'v') rfl rest
  have hparts : (i.parts ++ ('v' :: w) :: ws).takeWhile (·.head? ≠ some 'v') = i.parts := by
    rw [List.takeWhile_append_of_pos, List.takeWhile_cons_of_neg, List.append_nil]
    · simp
    · intro part hpart
      exact decide_eq_true (head?_ne_of_isWord (isWord_of_mem_parts hpart))
  rw [ofTrace?, htext, words_append_cons rfl, words_append_cons rfl, words_append_cons rfl,
    words_of_isWord (isWord_padded 4 pc.toNat), words_of_isWord (isWord_padded 4 opcode.toNat),
    words_mnemonic, hregisters]
  exact (congrArg ofWords? hparts).trans i.ofWords?_parts

/-- The mnemonics of two instructions are the same only if the instructions are, whatever their
operands, and those of two words that decode only if the words are the same or shift the same
register in the same direction. A trace therefore tells the instruction that was executed. -/
theorem mnemonics_are_unambiguous :
    (∀ i j : Instruction, i.mnemonic = j.mnemonic ↔ i = j) ∧
    (∀ (w v : Opcode) (i j : Instruction), decode w = .ok i → decode v = .ok j →
      (i.mnemonic = j.mnemonic ↔ i = j) ∧ (i = j ↔ w = v ∨ w.SameShift v)) ∧
    ∀ (pc pc' w w' : UInt16) (i i' : Instruction) (v v' : Registers) (index index' : UInt16),
      (Event.executing pc w i v index).text = (Event.executing pc' w' i' v' index').text →
        i = i' := by
  refine ⟨fun _ _ => mnemonic_inj, fun w v i j hw hv => ⟨mnemonic_inj, ?_⟩, ?_⟩
  · exact eq_iff_of_row (row_of_decode? (decode_eq_ok_iff.mp hw))
      (row_of_decode? (decode_eq_ok_iff.mp hv))
  · intro pc pc' w w' i i' v v' index index' h
    apply Option.some.inj
    rw [← ofTrace?_text pc w i v index, h, ofTrace?_text]

end Instruction

end Chip8
