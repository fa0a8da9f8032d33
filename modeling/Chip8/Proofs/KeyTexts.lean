import Mathlib.Data.List.TakeWhile
import Chip8.CommandLine.Key

/-!
# The texts of keys

A text is read as a key if, without the blanks around it, it is at most one plus sign, any number
of zeros and one hexadecimal digit. `Numeral.read?_eq_some_iff` says which texts are numerals, and
`Numeral.zeros_of_value_lt` that a numeral below its radix has only zeros in front of its last
digit, so that no numeral is too long to be refused by its value.
-/

namespace Chip8

theorem mapM_cons_eq_some {α β : Type} {f : α → Option β} {a : α} {as : List α} {bs : List β} :
    (a :: as).mapM f = some bs ↔
      ∃ b rest, f a = some b ∧ as.mapM f = some rest ∧ bs = b :: rest := by
  rw [List.mapM_cons]
  cases f a with
  | none => simp
  | some b =>
    cases as.mapM f with
    | none => simp
    | some rest => simp [eq_comm]

/-! ## Blanks -/

theorem trim_eq {lead core tail : List Char} (hlead : ∀ c ∈ lead, isBlank c = true)
    (hcore : ∀ c ∈ core, isBlank c = false) (htail : ∀ c ∈ tail, isBlank c = true) :
    trim (lead ++ core ++ tail) = core := by
  have hkeep : ∀ {cs : List Char}, (∀ c ∈ cs, isBlank c = false) → cs.dropWhile isBlank = cs := by
    intro cs h
    cases cs with
    | nil => rfl
    | cons c cs => exact List.dropWhile_cons_of_neg (by simp [h c (List.mem_cons_self ..)])
  have hback : ∀ c ∈ core.reverse, isBlank c = false := fun c hc => hcore c (List.mem_reverse.mp hc)
  have htail' : ∀ c ∈ tail.reverse, isBlank c = true := fun c hc => htail c (List.mem_reverse.mp hc)
  rw [trim, List.append_assoc, List.dropWhile_append_of_pos hlead]
  cases core with
  | nil =>
    rw [List.nil_append, List.dropWhile_eq_nil_iff.mpr htail]
    rfl
  | cons c core =>
    have hc : ¬isBlank c = true := by simp [hcore c (List.mem_cons_self ..)]
    rw [List.cons_append, List.dropWhile_cons_of_neg hc, ← List.cons_append, List.reverse_append,
      List.dropWhile_append_of_pos htail', hkeep hback, List.reverse_reverse]

theorem exists_trim (cs : List Char) :
    ∃ lead tail, cs = lead ++ trim cs ++ tail ∧ (∀ c ∈ lead, isBlank c = true) ∧
      ∀ c ∈ tail, isBlank c = true := by
  refine ⟨cs.takeWhile isBlank, ((cs.dropWhile isBlank).reverse.takeWhile isBlank).reverse, ?_,
    fun _ => List.mem_takeWhile_imp, fun c hc => ?_⟩
  · rw [trim, List.append_assoc, ← List.reverse_append, List.takeWhile_append_dropWhile,
      List.reverse_reverse, List.takeWhile_append_dropWhile]
  · exact List.mem_takeWhile_imp (List.mem_reverse.mp hc)

/-! ## Digits -/

namespace Hex

/-- What has a value is one of the two spellings of a digit. -/
theorem exists_digit_of_value? {c : Char} {n : Nat} (h : value? c = some n) :
    n < 16 ∧ ∃ case, c = digit case n := by
  unfold value? at h
  split at h
  · rename_i hc
    cases h
    obtain ⟨hlo, hhi⟩ : 48 ≤ c.toNat ∧ c.toNat ≤ 57 := hc
    refine ⟨by omega, .upper, ?_⟩
    rw [digit, if_pos (by omega), Nat.add_sub_cancel' hlo, Char.ofNat_toNat]
  split at h
  · rename_i hc
    cases h
    obtain ⟨hlo, hhi⟩ : 97 ≤ c.toNat ∧ c.toNat ≤ 102 := hc
    refine ⟨by omega, .lower, ?_⟩
    rw [digit, if_neg (by omega)]
    show c = Char.ofNat (87 + (c.toNat - 87))
    rw [Nat.add_sub_cancel' (by omega), Char.ofNat_toNat]
  split at h
  · rename_i hc
    cases h
    obtain ⟨hlo, hhi⟩ : 65 ≤ c.toNat ∧ c.toNat ≤ 70 := hc
    refine ⟨by omega, .upper, ?_⟩
    rw [digit, if_neg (by omega)]
    show c = Char.ofNat (55 + (c.toNat - 55))
    rw [Nat.add_sub_cancel' (by omega), Char.ofNat_toNat]
  · cases h

theorem digit_zero (case : Case) : digit case 0 = '0' := by
  cases case with
  | upper => rfl
  | lower => rfl

theorem isBlank_digit (case : Case) {n : Nat} (h : n < 16) : isBlank (digit case n) = false := by
  have : ∀ m < 16, isBlank (digit .upper m) = false ∧ isBlank (digit .lower m) = false := by decide
  cases case with
  | upper => exact (this n h).1
  | lower => exact (this n h).2

end Hex

/-! ## Numerals -/

namespace Numeral

variable {radix : Nat} {cs : List Char} {ds : List Nat}

theorem digit?_digit (case : Hex.Case) {n : Nat} (h : n < 16) :
    digit? 16 (Hex.digit case n) = some n := by
  rw [digit?, Hex.value?_digit case h]
  exact if_pos h

theorem exists_digit_of_digit? {c : Char} {n : Nat} (h : digit? 16 c = some n) :
    n < 16 ∧ ∃ case, c = Hex.digit case n := by
  unfold digit? at h
  cases hv : Hex.value? c with
  | none => rw [hv] at h; cases h
  | some d =>
    obtain ⟨hd, hc⟩ := Hex.exists_digit_of_value? hv
    have h' : (if d < 16 then some d else none) = some n := by rw [hv] at h; exact h
    rw [if_pos hd] at h'
    cases h'
    exact ⟨hd, hc⟩

theorem value_zeros_append (radix zeros : Nat) (ds : List Nat) :
    value radix (List.replicate zeros 0 ++ ds) = value radix ds := by
  induction zeros with
  | zero => rfl
  | succ zeros ih => exact ih

theorem value_zeros (radix zeros n : Nat) :
    value radix (List.replicate zeros 0 ++ [n]) = n := by
  rw [value_zeros_append]
  show radix * 0 + n = n
  rw [Nat.mul_zero, Nat.zero_add]

/-- What was read so far only grows. -/
theorem le_foldl (hradix : 0 < radix) (n : Nat) (ds : List Nat) :
    n ≤ ds.foldl (fun n d => radix * n + d) n := by
  induction ds generalizing n with
  | nil => exact Nat.le_refl n
  | cons d ds ih =>
    calc n ≤ radix * n := Nat.le_mul_of_pos_left n hradix
      _ ≤ radix * n + d := Nat.le_add_right _ d
      _ ≤ _ := ih _

/-- A digit in front of another one counts for the radix at least, or it is zero. -/
theorem eq_zero_of_value_lt {first next : Nat} (hradix : 0 < radix)
    (h : value radix (first :: next :: ds) < radix) : first = 0 := by
  have hle : radix * (radix * 0 + first) + next ≤ value radix (first :: next :: ds) :=
    le_foldl hradix _ ds
  rw [Nat.mul_zero, Nat.zero_add] at hle
  by_cases hfirst : first = 0
  · exact hfirst
  · have := Nat.le_mul_of_pos_right radix (Nat.pos_of_ne_zero hfirst)
    omega

/-- Zeros in front of a digit. -/
theorem mapM_digit?_zeros (zeros : Nat) (case : Hex.Case) {n : Nat} (h : n < 16) :
    (List.replicate zeros '0' ++ [Hex.digit case n]).mapM (digit? 16) =
      some (List.replicate zeros 0 ++ [n]) := by
  induction zeros with
  | zero => exact mapM_cons_eq_some.mpr ⟨n, [], digit?_digit case h, rfl, rfl⟩
  | succ zeros ih => exact mapM_cons_eq_some.mpr ⟨0, _, rfl, ih, rfl⟩

/-- A numeral below sixteen is zeros and its digit. -/
theorem zeros_of_value_lt (hne : cs ≠ []) (hds : cs.mapM (digit? 16) = some ds)
    (h : value 16 ds < 16) :
    ∃ zeros case, cs = List.replicate zeros '0' ++ [Hex.digit case (value 16 ds)] := by
  induction cs generalizing ds with
  | nil => exact absurd rfl hne
  | cons c cs ih =>
    obtain ⟨d, rest, hd, hrest, rfl⟩ := mapM_cons_eq_some.mp hds
    obtain ⟨-, case, rfl⟩ := exists_digit_of_digit? hd
    cases cs with
    | nil =>
      obtain rfl : rest = [] := (Option.some.inj hrest).symm
      have hvalue : value 16 [d] = d := value_zeros 16 0 d
      exact ⟨0, case, by rw [hvalue]; rfl⟩
    | cons next cs =>
      obtain ⟨e, rest, -, -, rfl⟩ := mapM_cons_eq_some.mp hrest
      -- a digit in front is zero, and the value is that of the digits behind it
      obtain rfl : d = 0 := eq_zero_of_value_lt (by decide) h
      obtain ⟨zeros, case', hcs⟩ := ih (List.cons_ne_nil next cs) hrest h
      exact ⟨zeros + 1, case', by rw [hcs, Hex.digit_zero]; rfl⟩

/-! ### Signs -/

theorem exists_sign (cs : List Char) :
    ∃ sign, cs = sign ++ stripPlus cs ∧ (sign = [] ∨ sign = ['+']) := by
  unfold stripPlus
  split
  · exact ⟨['+'], rfl, .inr rfl⟩
  · exact ⟨[], rfl, .inl rfl⟩

theorem stripPlus_of_digits {sign : List Char} (hsign : sign = [] ∨ sign = ['+']) (hne : cs ≠ [])
    (hds : cs.mapM (digit? radix) = some ds) : stripPlus (sign ++ cs) = cs := by
  rcases hsign with rfl | rfl
  · cases cs with
    | nil => exact absurd rfl hne
    | cons c cs =>
      obtain ⟨d, -, hd, -, -⟩ := mapM_cons_eq_some.mp hds
      rw [List.nil_append]
      unfold stripPlus
      split
      · rename_i hplus
        cases hplus
        cases hd
      · rfl
  · rfl

/-- A numeral is at most one plus sign and then one digit at least. -/
theorem read?_eq_some_iff {limit n : Nat} :
    read? radix limit cs = some n ↔
      ∃ sign digits ds, cs = sign ++ digits ∧ (sign = [] ∨ sign = ['+']) ∧ digits ≠ [] ∧
        digits.mapM (digit? radix) = some ds ∧ value radix ds = n ∧ n ≤ limit := by
  constructor
  · intro h
    obtain ⟨sign, hcs, hsign⟩ := exists_sign cs
    unfold read? at h
    split at h
    · cases h
    · rename_i c digits hstrip
      rw [hstrip] at hcs
      cases hds : (c :: digits).mapM (digit? radix) with
      | none => rw [hds] at h; cases h
      | some ds =>
        have hvalue :
            (if value radix ds ≤ limit then some (value radix ds) else none) = some n := by
          rw [hds] at h
          exact h
        split at hvalue
        · cases hvalue
          exact ⟨sign, c :: digits, ds, hcs, hsign, List.cons_ne_nil c digits, hds, rfl, ‹_›⟩
        · cases hvalue
  · rintro ⟨sign, digits, ds, rfl, hsign, hne, hds, rfl, hle⟩
    unfold read?
    rw [stripPlus_of_digits hsign hne hds]
    cases digits with
    | nil => exact absurd rfl hne
    | cons c digits =>
      show ((c :: digits).mapM (digit? radix) >>= _) = _
      rw [hds]
      exact if_pos hle

end Numeral

/-! ## Keys -/

namespace CommandLine

/-- The text of a key: between blanks at most one plus sign, any number of zeros and a digit. -/
inductive KeyText : List Char → UInt8 → Prop
  | intro {lead sign tail : List Char} {k : UInt8} (zeros : Nat) (case : Hex.Case) :
      (∀ c ∈ lead, isBlank c = true) → (∀ c ∈ tail, isBlank c = true) →
      sign = [] ∨ sign = ['+'] → k ≤ 0xF →
      KeyText (lead ++ (sign ++ (List.replicate zeros '0' ++ [Hex.digit case k.toNat])) ++ tail) k

theorem KeyText.le {cs : List Char} {k : UInt8} (h : KeyText cs k) : k ≤ 0xF := by
  cases h with
  | intro zeros case hlead htail hsign hk => exact hk

theorem readKey?_eq_some_iff {cs : List Char} {k : UInt8} :
    readKey? cs = some k ↔ Numeral.read? 16 0xF (trim cs) = some k.toNat := by
  rw [readKey?, Option.map_eq_some_iff]
  constructor
  · rintro ⟨n, hn, rfl⟩
    obtain ⟨-, -, -, -, -, -, -, -, hle⟩ := Numeral.read?_eq_some_iff.mp hn
    rw [hn, UInt8.toNat_ofNat', Nat.mod_eq_of_lt (by omega)]
  · intro h
    exact ⟨k.toNat, h, UInt8.ofNat_toNat⟩

/-- Nothing between the blanks is one. -/
theorem isBlank_of_mem_key {sign : List Char} {zeros : Nat} {case : Hex.Case} {k : UInt8}
    (hsign : sign = [] ∨ sign = ['+']) (hk : k ≤ 0xF) :
    ∀ c ∈ sign ++ (List.replicate zeros '0' ++ [Hex.digit case k.toNat]), isBlank c = false := by
  intro c hc
  rcases List.mem_append.mp hc with hc | hc
  · rcases hsign with rfl | rfl
    · exact absurd hc List.not_mem_nil
    · rw [List.mem_singleton.mp hc]
      rfl
  rcases List.mem_append.mp hc with hc | hc
  · rw [List.eq_of_mem_replicate hc]
    rfl
  · rw [List.mem_singleton.mp hc]
    exact Hex.isBlank_digit case (Nat.lt_succ_of_le (UInt8.le_iff_toNat_le.mp hk))

theorem readKey?_iff_keyText {cs : List Char} {k : UInt8} :
    readKey? cs = some k ↔ KeyText cs k := by
  rw [readKey?_eq_some_iff, Numeral.read?_eq_some_iff]
  constructor
  · rintro ⟨sign, digits, ds, htrim, hsign, hne, hds, hvalue, hle⟩
    obtain ⟨lead, tail, hcs, hlead, htail⟩ := exists_trim cs
    obtain ⟨zeros, case, hdigits⟩ := Numeral.zeros_of_value_lt hne hds (by omega)
    rw [hvalue] at hdigits
    rw [hcs, htrim, hdigits]
    exact .intro zeros case hlead htail hsign (UInt8.le_iff_toNat_le.mpr hle)
  · intro h
    cases h with
    | @intro lead sign tail _ zeros case hlead htail hsign hk =>
      have hle : k.toNat ≤ 0xF := UInt8.le_iff_toNat_le.mp hk
      rw [trim_eq hlead (isBlank_of_mem_key hsign hk) htail]
      exact ⟨sign, _, _, rfl, hsign, List.append_ne_nil_of_right_ne_nil _ (List.cons_ne_nil _ []),
        Numeral.mapM_digit?_zeros zeros case (Nat.lt_succ_of_le hle),
        Numeral.value_zeros 16 zeros k.toNat, hle⟩

theorem readKey_eq_ok_iff {text : String} {k : UInt8} :
    readKey text = .ok k ↔ readKey? text.toList = some k := by
  unfold readKey
  cases readKey? text.toList with
  | some j => simp
  | none => simp

/-- A text is read as the key `k` if and only if it spells `k`, a text that spells no key is refused
and quoted, and no key is above `F`. -/
theorem readKey_accepts_key_texts (text : String) :
    (∀ k, readKey text = .ok k ↔ KeyText text.toList k) ∧
    ((∀ k, ¬KeyText text.toList k) → readKey text = .error ⟨text⟩) ∧
    (∀ k, readKey text = .ok k → k ≤ 0xF) := by
  have hiff : ∀ k, readKey text = .ok k ↔ KeyText text.toList k := fun k =>
    readKey_eq_ok_iff.trans readKey?_iff_keyText
  refine ⟨hiff, ?_, fun k hk => ((hiff k).mp hk).le⟩
  intro hnone
  cases hread : readKey? text.toList with
  | some k => exact absurd (readKey?_iff_keyText.mp hread) (hnone k)
  | none => rw [readKey, hread]

/-- Blanks, a plus sign and zeros. -/
example : readKey? "\u2003+00a ".toList = some 0xA := by decide

/-- The value is not taken modulo the size of a byte. -/
example : readKey? "101".toList = none := by decide

end CommandLine

end Chip8
