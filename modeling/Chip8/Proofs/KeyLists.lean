import Mathlib.Data.List.Forall2
import Chip8.Proofs.Drafts
import Chip8.Proofs.KeyTexts

/-!
# Lists of keys on the command line

However keys are divided into lists, and wherever the options that hold the lists stand among the
other arguments, they are read from left to right and none is lost, merged or moved. `Placed`
describes such command lines by their words; `Placed.adds` is the induction over one.
-/

namespace Chip8.CommandLine

/-! ## Command lines -/

/-- Letters of which the last takes the next word for its value, the others being flags. -/
def lettersAwait : List Char → Bool
  | [] => false
  | letter :: rest =>
    match Argument.ofLetter? letter with
    | some a => if a.takesValue then rest.isEmpty else lettersAwait rest
    | none => false

/-- The value of the option is the next word. -/
def awaitsValue (word : String) : Bool :=
  match word.toList with
  | '-' :: '-' :: name => !name.contains '=' && (Argument.ofName? name).any Argument.takesValue
  | '-' :: letters => lettersAwait letters
  | _ => false

/-- The words of one argument: an option with the next word for its value, or a word that stands
alone. The terminator is none. -/
inductive Complete : List String → Prop
  | word {word : String} : word ≠ "--" → awaitsValue word = false → Complete [word]
  | pair {word value : String} : awaitsValue word = true → ¬IsOption value → Complete [word, value]

/-- What may stand in front of the letter of an option: a dash, and perhaps a flag with it, which
counts as a word of its own. -/
inductive Lead : String → List String → Prop
  | dash : Lead "-" []
  | flag : Lead "-f" ["-f"]

/-- The words of an option that gives the value to the keys, in each of its spellings, and the other
words that they hold. Right behind the letter an equals sign is no part of the value. -/
inductive KeyOption (value : String) : List String → List String → Prop
  | long : value.toList.head? ≠ some '-' → KeyOption value [] ["--keys", value]
  | longAttached : KeyOption value [] ["--keys=" ++ value]
  | short {lead : String} {others : List String} : Lead lead others →
      value.toList.head? ≠ some '-' → KeyOption value others [lead ++ "k", value]
  | shortAttached {lead : String} {others : List String} : Lead lead others →
      value.toList.head? ≠ some '=' → KeyOption value others [lead ++ "k" ++ value]
  | shortEquals {lead : String} {others : List String} : Lead lead others →
      KeyOption value others [lead ++ "k=" ++ value]

/-- The text of a list of keys. -/
def joined (group : List String) : String := ",".intercalate group

/-- The keys that the pieces of a list are read as, if each is one. -/
def readPieces (pieces : List String) : Option (List UInt8) :=
  pieces.mapM fun piece => readKey? piece.toList

/-- The words come from the others by putting in, between two arguments and before the terminator,
one option for each group of keys, in the order of the groups. -/
inductive Placed : List (List String) → List String → List String → Prop
  | rest (others : List String) : Placed [] others others
  | argument {groups : List (List String)} {argument others words : List String} :
      Complete argument → Placed groups others words →
      Placed groups (argument ++ others) (argument ++ words)
  | keys {group : List String} {groups : List (List String)}
      {option held others words : List String} :
      KeyOption (joined group) held option → Placed groups others words →
      Placed (group :: groups) (held ++ others) (option ++ words)

namespace Draft

variable {d d' : Draft} {a : Argument} {word value : String} {words : List String}

/-! ## One argument -/

theorem awaits_of_start {value : Option String} (h : d.start a value = .ok d') :
    d'.opened = some (a, value) := by
  obtain ⟨c, -, hc⟩ := bind_eq_ok.mp h
  cases hc
  rfl

theorem closed_of_give {value : Option String} (h : d.give a value = .ok d') :
    d'.opened = none := by
  obtain ⟨c, hclose, htake⟩ := bind_eq_ok.mp h
  rw [(take_frame htake).1, (close_frame hclose).1]

theorem awaits_iff_of_short {letters : List Char} (hclosed : d.opened = none)
    (h : d.short word letters = .ok d') : d'.Awaits ↔ lettersAwait letters = true := by
  induction letters generalizing d with
  | nil =>
    cases h
    exact iff_of_false (not_awaits_of_closed hclosed) (by simp [lettersAwait])
  | cons letter rest ih =>
    cases ha : Argument.ofLetter? letter with
    | none =>
      simp only [short, ha] at h
      cases h
    | some a =>
      simp only [short, lettersAwait, ha] at h ⊢
      -- only a letter that takes a value ends the word; a flag is given and leaves the draft closed
      split at h
      · rename_i htakes
        rw [if_pos htakes]
        split at h
        · rename_i hrest
          exact iff_of_true ⟨a, awaits_of_start h⟩ hrest
        · rename_i hrest
          exact iff_of_false (not_awaits_of_closed (closed_of_give h)) hrest
      · rename_i htakes
        rw [if_neg htakes]
        obtain ⟨c, hgive, hshort⟩ := bind_eq_ok.mp h
        exact ih (closed_of_give hgive) hshort

theorem awaits_iff_of_long {cs : List Char}
    (h : d.long word (divide cs).1 (divide cs).2 = .ok d') :
    d'.Awaits ↔ (!cs.contains '=' && (Argument.ofName? cs).any Argument.takesValue) = true := by
  by_cases hmem : '=' ∈ cs
  · obtain ⟨name, value, rfl, hname⟩ := List.eq_append_cons_of_mem hmem
    rw [divide_append hname] at h
    have hawaits : ¬d'.Awaits := by
      unfold long at h
      split at h
      · cases h
      · split at h
        · exact not_awaits_of_closed (closed_of_give h)
        · cases h
      · rename_i hnone
        cases hnone
    simp [hawaits]
  · rw [divide_of_not_mem hmem] at h
    simp only [long, Option.map_none] at h
    cases ha : Argument.ofName? cs with
    | none => simp [ha] at h
    | some a =>
      simp only [ha] at h
      split at h
      · rename_i htakes
        simp [hmem, htakes, Awaits, awaits_of_start h]
      · rename_i htakes
        simp [htakes, not_awaits_of_closed (closed_of_give h)]

theorem not_awaits_of_positional (h : d.positional word = .ok d') : ¬d'.Awaits := by
  unfold positional at h
  split at h
  · cases h
  · rintro ⟨a, ha⟩
    rw [awaits_of_start h] at ha
    cases ha

theorem awaitsValue_of_not_isOption (h : ¬IsOption word) : awaitsValue word = false := by
  unfold awaitsValue
  split
  · rename_i hw
    exact absurd ⟨_, _, hw⟩ h
  · rename_i letters _ hw
    cases letters with
    | nil => rfl
    | cons c cs => exact absurd ⟨c, cs, hw⟩ h
  · rfl

/-- A word leaves a value to come if it says so. -/
theorem awaits_iff_of_read (hclosed : d.opened = none) (hne : word ≠ "--")
    (h : d.read [word] = .ok d') : d'.Awaits ↔ awaitsValue word = true := by
  rcases word_cases word with hword | ⟨cs, hcs, hw⟩ | ⟨c, cs, hc, hw⟩ | hw
  · exact absurd hword hne
  · obtain ⟨d₁, hlong, hread⟩ := bind_eq_ok.mp (read_long hcs hw ▸ h)
    cases hread
    simp only [awaitsValue, hw]
    exact awaits_iff_of_long hlong
  · obtain ⟨d₁, hshort, hread⟩ := bind_eq_ok.mp (read_short hc hw ▸ h)
    cases hread
    rw [awaits_iff_of_short hclosed hshort, awaitsValue, hw]
    split
    · rename_i hdashes
      cases hdashes
      exact absurd rfl hc
    · rename_i hletters
      cases hletters
      rfl
    · rename_i hother
      exact absurd rfl (hother _)
  · obtain ⟨d₁, hplain, hread⟩ := bind_eq_ok.mp (read_plain hw ▸ h)
    cases hread
    have hpositional : d.positional word = .ok d' := by
      rw [plain, hclosed] at hplain
      exact hplain
    rw [awaitsValue_of_not_isOption hw]
    exact iff_of_false (not_awaits_of_positional hpositional) Bool.false_ne_true

end Draft

namespace Complete

variable {d d' : Draft} {argument : List String}

theorem read_append (h : Complete argument) (d : Draft) (words : List String) :
    d.read (argument ++ words) = d.read argument >>= (·.read words) := by
  cases h with
  | word hne _ => exact Draft.read_cons hne d words
  | @pair word value hawaits hvalue =>
    have hword : word ≠ "--" := by
      rintro rfl
      cases hawaits
    have hvalue : value ≠ "--" := by
      rintro rfl
      exact hvalue ⟨'-', [], rfl⟩
    show d.read (word :: value :: words) = d.read (word :: [value]) >>= (·.read words)
    rw [Draft.read_cons hword d (value :: words), Draft.read_cons hword d [value], bind_assoc]
    exact congrArg (d.read [word] >>= ·) (funext fun d₁ => Draft.read_cons hvalue d₁ words)

/-- After all its words the argument has its value. -/
theorem not_awaits (h : Complete argument) (hclosed : d.opened = none)
    (hread : d.read argument = .ok d') : ¬d'.Awaits := by
  cases h with
  | word hne hword => simp [Draft.awaits_iff_of_read hclosed hne hread, hword]
  | @pair word value hawaits hvalue =>
    have hword : word ≠ "--" := by
      rintro rfl
      cases hawaits
    obtain ⟨d₁, hd₁, hd'⟩ := bind_eq_ok.mp (Draft.read_cons hword d [value] ▸ hread)
    obtain ⟨a, ha⟩ := (Draft.awaits_iff_of_read hclosed hword hd₁).mpr hawaits
    rw [Draft.read_plain hvalue, Draft.plain, ha] at hd'
    cases hd'
    rintro ⟨b, hb⟩
    cases hb

end Complete

/-! ## One option for keys -/

theorem not_isOption_of_head {word : String} (h : word.toList.head? ≠ some '-') :
    ¬IsOption word := by
  rintro ⟨c, cs, hw⟩
  rw [hw] at h
  exact h rfl

namespace Lead

variable {lead : String} {held : List String}

/-- The words that are held behind a dash are read before the letter for keys. -/
theorem read_eq (h : Lead lead held) {word : String} {cs : List Char}
    (hw : word.toList = lead.toList ++ 'k' :: cs) (d : Draft) (words : List String) :
    d.read (word :: words) =
      d.read held >>= fun d₁ => d₁.short word ('k' :: cs) >>= (·.read words) := by
  cases h with
  | dash => exact Draft.read_short (by decide) hw
  | flag =>
    rw [Draft.read_short (c := 'f') (by decide) hw, Draft.read_short (c := 'f') (by decide) rfl]
    show (d.give .fastForward none >>= _) >>= _ = ((d.give .fastForward none >>= _) >>= _) >>= _
    simp only [bind_assoc]
    rfl

theorem read_append (h : Lead lead held) (d : Draft) (words : List String) :
    d.read (held ++ words) = d.read held >>= (·.read words) := by
  cases h with
  | dash => rfl
  | flag => exact Draft.read_cons (by decide) d words

theorem closed (h : Lead lead held) {d d' : Draft} (hclosed : d.opened = none)
    (hread : d.read held = .ok d') : d'.opened = none := by
  cases h with
  | dash =>
    cases hread
    exact hclosed
  | flag =>
    rw [Draft.read_short (c := 'f') (by decide) rfl] at hread
    obtain ⟨d₁, hshort, h⟩ := bind_eq_ok.mp hread
    cases h
    obtain ⟨d₂, hgive, h⟩ := bind_eq_ok.mp hshort
    cases h
    exact Draft.closed_of_give hgive

end Lead

namespace Draft

variable {d d' : Draft} {a : Argument} {word value : String}

/-- A value may be given with its argument or after it. -/
theorem start_value (hclosed : d.opened = none) (a : Argument) (hvalue : ¬IsOption value)
    (words : List String) :
    d.start a none >>= (·.read (value :: words)) = d.start a (some value) >>= (·.read words) := by
  simp only [start, close_of_closed hclosed]
  exact read_plain hvalue

theorem stripEquals_of_head {cs : List Char} (h : cs.head? ≠ some '=') : stripEquals cs = cs := by
  unfold stripEquals
  split
  · exact absurd rfl h
  · rfl

theorem short_keys_attached {cs : List Char} (hne : cs ≠ []) (d : Draft) (word : String) :
    d.short word ('k' :: cs) = d.give .keys (some (String.ofList (stripEquals cs))) := by
  cases cs with
  | nil => exact absurd rfl hne
  | cons c cs => rfl

end Draft

theorem KeyOption.lead {value : String} {held option : List String}
    (h : KeyOption value held option) : ∃ lead, Lead lead held := by
  cases h with
  | long | longAttached => exact ⟨_, .dash⟩
  | short hlead | shortAttached hlead | shortEquals hlead => exact ⟨_, hlead⟩

/-- The words that an option holds are read, and then the value is taken in at once or left open. -/
theorem KeyOption.read_eq {value : String} {held option : List String}
    (h : KeyOption value held option) (hvalue : value ≠ "") :
    ∃ f : Draft → Except Refusal Draft,
      (f = (·.start .keys (some value)) ∨ f = (·.give .keys (some value))) ∧
      ∀ (d : Draft) words, d.opened = none → d.read (option ++ words) =
        d.read held >>= fun d₁ => f d₁ >>= (·.read words) := by
  have hchars : value.toList ≠ [] := fun h => hvalue (String.toList_inj.mp h)
  cases h with
  | long hhead =>
    refine ⟨_, .inl rfl, fun d words hclosed => ?_⟩
    show d.read ("--keys" :: value :: words) = d.start .keys (some value) >>= _
    rw [Draft.read_long (by simp) rfl]
    exact Draft.start_value hclosed .keys (not_isOption_of_head hhead) words
  | longAttached =>
    refine ⟨_, .inr rfl, fun d words hclosed => ?_⟩
    have hw : ("--keys=" ++ value).toList =
        '-' :: '-' :: ("keys".toList ++ '=' :: value.toList) := by
      rw [String.toList_append]
      rfl
    show d.read (("--keys=" ++ value) :: words) = _
    rw [Draft.read_long (by simp) hw, Draft.divide_append (by decide)]
    show d.give .keys (some (String.ofList value.toList)) >>= _ = _
    rw [String.ofList_toList]
    rfl
  | @short lead _ hlead hhead =>
    refine ⟨_, .inl rfl, fun d words hclosed => ?_⟩
    have hw : (lead ++ "k").toList = lead.toList ++ ['k'] := String.toList_append
    show d.read ((lead ++ "k") :: value :: words) = _
    rw [hlead.read_eq hw]
    refine bind_congr_ok fun d₁ hd₁ => ?_
    exact Draft.start_value (hlead.closed hclosed hd₁) .keys (not_isOption_of_head hhead) words
  | @shortAttached lead _ hlead hhead =>
    refine ⟨_, .inr rfl, fun d words hclosed => ?_⟩
    have hw : (lead ++ "k" ++ value).toList = lead.toList ++ 'k' :: value.toList := by
      simp
    show d.read ((lead ++ "k" ++ value) :: words) = _
    simp only [hlead.read_eq hw, Draft.short_keys_attached hchars, Draft.stripEquals_of_head hhead,
      String.ofList_toList]
  | @shortEquals lead _ hlead =>
    refine ⟨_, .inr rfl, fun d words hclosed => ?_⟩
    have hw : (lead ++ "k=" ++ value).toList = lead.toList ++ 'k' :: '=' :: value.toList := by
      simp
    show d.read ((lead ++ "k=" ++ value) :: words) = _
    simp only [hlead.read_eq hw, Draft.short_keys_attached (List.cons_ne_nil _ _),
      Draft.stripEquals, String.ofList_toList]

/-! ## The pieces of a list -/

theorem readPieces_append (pieces more : List String) :
    readPieces (pieces ++ more) = do
      let keys ← readPieces pieces
      let rest ← readPieces more
      return keys ++ rest :=
  List.mapM_append

theorem readPieces_eq_some_iff {pieces : List String} {keys : List UInt8} :
    readPieces pieces = some keys ↔
      List.Forall₂ (fun piece k => readKey piece = .ok k) pieces keys := by
  induction pieces generalizing keys with
  | nil => simp [readPieces]
  | cons piece pieces ih =>
    simp only [List.forall₂_cons_left_iff, ← ih]
    simp only [readKey_eq_ok_iff]
    exact mapM_cons_eq_some

theorem exists_key_of_mem {piece : String} {pieces : List String} {keys : List UInt8}
    (h : List.Forall₂ (fun piece k => readKey piece = .ok k) pieces keys) (hmem : piece ∈ pieces) :
    ∃ k, readKey piece = .ok k := by
  induction h with
  | nil => cases hmem
  | cons hk _ ih =>
    rcases List.mem_cons.mp hmem with rfl | hmem
    · exact ⟨_, hk⟩
    · exact ih hmem

theorem readPieces_eq_none {piece : String} {pieces : List String} (hmem : piece ∈ pieces)
    (h : ∀ k, readKey piece ≠ .ok k) : readPieces pieces = none := by
  refine Option.eq_none_iff_forall_ne_some.mpr fun keys hkeys => ?_
  obtain ⟨k, hk⟩ := exists_key_of_mem (readPieces_eq_some_iff.mp hkeys) hmem
  exact h k hk

section
variable {group : List String}

theorem toList_joined (group : List String) :
    (joined group).toList = [','].intercalate (group.map String.toList) := by
  rw [joined, String.toList_intercalate]
  rfl

theorem joined_ne_empty (hgroup : group ≠ []) (hpieces : ∀ piece ∈ group, piece ≠ "") :
    joined group ≠ "" := by
  intro h
  have hempty : [','].intercalate (group.map String.toList) = [] := by
    rw [← toList_joined, h]
    rfl
  cases group with
  | nil => exact hgroup rfl
  | cons piece rest =>
    have hpiece : piece.toList ≠ [] := fun h =>
      hpieces piece (List.mem_cons_self ..) (String.toList_inj.mp h)
    cases rest with
    | nil => simp [hpiece] at hempty
    | cons next rest => simp at hempty

/-- What is joined is divided at the same commas. -/
theorem readKeys_joined (hgroup : group ≠ []) (hcommas : ∀ piece ∈ group, ',' ∉ piece.toList) :
    Draft.readKeys (joined group) =
      match readPieces group with
      | some keys => .ok keys
      | none => .error (.badValue .keys (joined group)) := by
  have hsplit : (joined group).toList.splitOn ',' = group.map String.toList := by
    rw [toList_joined]
    refine List.splitOn_intercalate ',' (fun cs hcs => ?_) (by simpa using hgroup)
    obtain ⟨piece, hpiece, rfl⟩ := List.mem_map.mp hcs
    exact hcommas piece hpiece
  rw [Draft.readKeys, hsplit, List.mapM_map]
  rfl

end

/-! ## A whole command line -/

/-- What the command line comes to when the keys that the pieces are read as are added to these
settings. -/
structure Adds (settings : Settings) (pieces : List String) (x : Except Refusal Settings) :
    Prop where
  ok : ∀ keys, readPieces pieces = some keys → x = .ok { settings with keys }
  refused : readPieces pieces = none → ∃ text, x = .error (.badValue .keys text)

namespace Adds

variable {settings : Settings} {group pieces : List String} {x : Except Refusal Settings}

theorem not_onSight {r : Refusal} (h : Adds settings pieces (.error r)) : ¬r.OnSight := by
  cases hkeys : readPieces pieces with
  | none =>
    obtain ⟨text, htext⟩ := h.refused hkeys
    cases htext
    exact fun hr => nomatch hr
  | some keys => cases h.ok keys hkeys

theorem append {keys : List UInt8} (hgroup : readPieces group = some keys)
    (h : Adds settings pieces x) :
    Adds settings (group ++ pieces) (x.map fun s => { s with keys := keys ++ s.keys }) := by
  have happend : readPieces (group ++ pieces) = (readPieces pieces).map (keys ++ ·) := by
    rw [readPieces_append, hgroup]
    exact Option.map_eq_bind.symm
  refine ⟨fun all hall => ?_, fun hnone => ?_⟩
  · rw [happend] at hall
    obtain ⟨rest, hrest, rfl⟩ := Option.map_eq_some_iff.mp hall
    rw [h.ok rest hrest]
    rfl
  · rw [happend, Option.map_eq_none_iff] at hnone
    obtain ⟨text, rfl⟩ := h.refused hnone
    exact ⟨text, rfl⟩

theorem refuse (hgroup : readPieces group = none) (text : String) :
    Adds settings (group ++ pieces) (.error (.badValue .keys text)) := by
  refine ⟨fun all hall => ?_, fun _ => ⟨text, rfl⟩⟩
  rw [readPieces_append, hgroup] at hall
  cases hall

end Adds

namespace Draft

variable {d : Draft} {others words : List String} {settings : Settings}

theorem finish_append {argument : List String}
    (h : ∀ (d : Draft) words, d.read (argument ++ words) = d.read argument >>= (·.read words))
    (d : Draft) (words : List String) :
    d.finish (argument ++ words) = d.read argument >>= (·.finish words) := by
  rw [finish, h, bind_assoc]
  rfl

/-- There were no keys among what was read if the settings have none. -/
theorem keys_of_finish (h : d.finish words = .ok settings) (hkeys : settings.keys = []) :
    d.keys = [] := by
  have hd : d = withKeys d.keys { d with keys := [] } := by
    rw [withKeys, List.append_nil]
  rw [hd, finish_withKeys] at h
  cases hrest : ({ d with keys := [] } : Draft).finish words with
  | error r =>
    rw [hrest] at h
    cases h
  | ok rest =>
    rw [hrest] at h
    cases h
    exact (List.append_eq_nil_iff.mp hkeys).1

/-- An argument that is left open comes to the same as one that is taken in, unless a later word is
refused on sight. -/
theorem finish_start {a : Argument} (ha : a ≠ .rom) (value : String) (hclosed : d.opened = none)
    (words : List String) :
    d.start a (some value) >>= (·.finish words) = d.give a (some value) >>= (·.finish words) ∨
      ∃ r : Refusal, r.OnSight ∧ d.finish words = .error r := by
  have hrom : ({ d with opened := some (a, some value) } : Draft).hasRom = d.hasRom := by
    simp [hasRom, hclosed, ha]
  have hawaits : ¬({ d with opened := some (a, some value) } : Draft).Awaits := by
    rintro ⟨b, hb⟩
    cases hb
  have hclose : ({ d with opened := some (a, some value) } : Draft).close =
      d.give a (some value) := by
    rw [close_of_opened rfl, give, close_of_closed hclosed, ← hclosed]
    rfl
  rcases finish_cases d.hasRom words with ⟨r, hr, hx⟩ | ⟨f, hf⟩
  · exact .inr ⟨r, hr, hx d (not_awaits_of_closed hclosed) rfl⟩
  · refine .inl ?_
    rw [start, close_of_closed hclosed]
    show ({ d with opened := some (a, some value) } : Draft).finish words = _
    rw [hf _ hawaits hrom, hclose]
    refine bind_congr_ok fun d' hd' => ?_
    have hopened : d'.opened = none := closed_of_give hd'
    rw [hf d' (not_awaits_of_closed hopened) ((close_frame (hclose ▸ hd')).2.trans hrom),
      close_of_closed hopened]
    rfl

theorem give_keys (hclosed : d.opened = none) (hkeys : d.keys = []) (value : String) :
    d.give .keys (some value) = (readKeys value).map fun keys => withKeys keys d := by
  rw [give, close_of_closed hclosed]
  show (readKeys value >>= fun keys => .ok { d with keys := d.keys ++ keys }) = _
  simp only [withKeys, hkeys, List.append_nil, List.nil_append]
  rfl

/-- An option for keys, taken in at once or left open, adds them in front of those that follow. -/
theorem adds_keys {group pieces : List String} {f : Draft → Except Refusal Draft}
    (hf : f = (·.start .keys (some (joined group))) ∨ f = (·.give .keys (some (joined group))))
    (hgroup : group ≠ []) (hcommas : ∀ piece ∈ group, ',' ∉ piece.toList)
    (hclosed : d.opened = none) (hkeys : d.keys = [])
    (h : Adds settings pieces (d.finish words)) :
    Adds settings (group ++ pieces) (f d >>= (·.finish words)) := by
  have hgive : f d >>= (·.finish words) =
      d.give .keys (some (joined group)) >>= (·.finish words) := by
    rcases hf with rfl | rfl
    · rcases finish_start (a := .keys) (by decide) (joined group) hclosed words with
        heq | ⟨r, hr, hrefused⟩
      · exact heq
      -- a word behind it that is refused on sight would be refused without the option too
      · exact absurd hr (hrefused ▸ h).not_onSight
    · rfl
  rw [hgive, give_keys hclosed hkeys, readKeys_joined hgroup hcommas, bind_map]
  simp only [finish_withKeys]
  cases hread : readPieces group with
  | none => exact .refuse hread (joined group)
  | some keys => exact h.append hread

end Draft

theorem Placed.adds {groups : List (List String)} {others words : List String}
    (h : Placed groups others words)
    (hgroups : ∀ group ∈ groups, group ≠ [] ∧ ∀ piece ∈ group, piece ≠ "" ∧ ',' ∉ piece.toList)
    {d : Draft} {settings : Settings} (hclosed : d.opened = none)
    (hothers : d.finish others = .ok settings) (hkeys : settings.keys = []) :
    Adds settings groups.flatten (d.finish words) := by
  induction h generalizing d with
  | rest others =>
    refine ⟨fun keys hread => ?_, fun hnone => nomatch hnone⟩
    obtain rfl : [] = keys := Option.some.inj hread
    rw [hothers, ← hkeys]
  | @argument groups argument others words hargument _ ih =>
    rw [Draft.finish_append hargument.read_append] at hothers ⊢
    obtain ⟨d₁, hd₁, hfinish⟩ := bind_eq_ok.mp hothers
    have hawaits : ¬d₁.Awaits := hargument.not_awaits hclosed hd₁
    obtain ⟨d₂, hclose⟩ := Draft.exists_close_of_finish hawaits hfinish
    -- what the argument leaves open is taken in on both sides, so that the next one starts afresh
    rw [Draft.finish_of_close hawaits hclose] at hfinish
    rw [hd₁]
    show Adds settings groups.flatten (d₁.finish words)
    rw [Draft.finish_of_close hawaits hclose]
    exact ih hgroups (Draft.close_frame hclose).1 hfinish
  | @keys group groups option held others words hoption _ ih =>
    obtain ⟨⟨hgroup, hpieces⟩, hgroups⟩ := List.forall_mem_cons.mp hgroups
    obtain ⟨f, hf, hread⟩ :=
      hoption.read_eq (joined_ne_empty hgroup fun piece hpiece => (hpieces piece hpiece).1)
    obtain ⟨lead, hlead⟩ := hoption.lead
    rw [Draft.finish_append hlead.read_append] at hothers
    obtain ⟨d₁, hd₁, hfinish⟩ := bind_eq_ok.mp hothers
    have hclosed₁ : d₁.opened = none := hlead.closed hclosed hd₁
    have hwords : d.finish (option ++ words) = f d₁ >>= (·.finish words) := by
      rw [Draft.finish, hread d words hclosed, hd₁]
      show (f d₁ >>= _) >>= _ = _
      rw [bind_assoc]
      rfl
    rw [hwords]
    exact Draft.adds_keys hf hgroup (fun piece hpiece => (hpieces piece hpiece).2) hclosed₁
      (Draft.keys_of_finish hfinish hkeys) (ih hgroups hclosed₁ hfinish)

/-- Options for keys, each with a list of pieces, stand among other words that are accepted and give
no keys. If every piece is a key, the keys are those of the pieces from left to right, and all else
is as it is without them; if one is not, the command line is refused for the value of its keys. The
pieces are those of the value, and right behind the letter an equals sign is no part of it: `-k=1`
gives the key `1`, as `-k1` does. -/
theorem read_keeps_keys_in_order {groups : List (List String)} {others words : List String}
    {settings : Settings}
    (hgroups : ∀ group ∈ groups, group ≠ [] ∧ ∀ piece ∈ group, piece ≠ "" ∧ ',' ∉ piece.toList)
    (hothers : read others = .ok settings) (hkeys : settings.keys = [])
    (h : Placed groups others words) :
    (∀ keys, List.Forall₂ (fun piece k => readKey piece = .ok k) groups.flatten keys →
      read words = .ok { settings with keys }) ∧
    ((∃ piece ∈ groups.flatten, ∀ k, readKey piece ≠ .ok k) →
      ∃ text, read words = .error (.badValue .keys text)) := by
  have hadds : Adds settings groups.flatten (read words) :=
    h.adds (d := Draft.empty) hgroups rfl hothers hkeys
  constructor
  · intro keys hread
    exact hadds.ok keys (readPieces_eq_some_iff.mpr hread)
  · rintro ⟨piece, hmem, hnot⟩
    exact hadds.refused (readPieces_eq_none hmem hnot)

/-- A list behind a flag and one behind the path, and a list with a piece that is no key. -/
theorem read_keeps_keys_of_two_lists :
    read ["-fk1,a", "rom.ch8", "--keys", "b"] = .ok {
      rom := "rom.ch8", cycles := 2000, seed := none, keys := [0x1, 0xA, 0xB],
      fastForward := true } ∧
    ∃ text, read ["rom.ch8", "-k=1,g"] = .error (.badValue .keys text) := by
  have hpath : Complete ["rom.ch8"] := .word (by decide) (by decide)
  constructor
  · have hothers : read ["-f", "rom.ch8"] = .ok ⟨"rom.ch8", 2000, none, [], true⟩ := by decide
    have hfirst : KeyOption (joined ["1", "a"]) ["-f"] ["-fk1,a"] :=
      .shortAttached .flag (by decide)
    have hsecond : KeyOption (joined ["b"]) [] ["--keys", "b"] := .long (by decide)
    have hplaced :
        Placed [["1", "a"], ["b"]] ["-f", "rom.ch8"] ["-fk1,a", "rom.ch8", "--keys", "b"] :=
      .keys hfirst (.argument hpath (.keys hsecond (.rest [])))
    exact (read_keeps_keys_in_order (by decide) hothers rfl hplaced).1 _ (by decide)
  · have hothers : read ["rom.ch8"] = .ok ⟨"rom.ch8", 2000, none, [], false⟩ := by decide
    have hoption : KeyOption (joined ["1", "g"]) [] ["-k=1,g"] := .shortEquals .dash
    have hplaced : Placed [["1", "g"]] ["rom.ch8"] ["rom.ch8", "-k=1,g"] :=
      .argument hpath (.keys hoption (.rest []))
    have hnot : ∀ k, readKey "g" ≠ .ok k := by
      have hread : readKey "g" = .error ⟨"g"⟩ := by decide
      exact fun k hk => nomatch hread ▸ hk
    exact (read_keeps_keys_in_order (by decide) hothers rfl hplaced).2 ⟨"g", by decide, hnot⟩

end Chip8.CommandLine
