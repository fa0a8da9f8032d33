import Mathlib.Data.List.TakeWhile
import Chip8.CommandLine.Reader

/-!
# Drafts of a command line

Two laws of the reader carry what is proved of command lines. An argument is taken in before the
next one is begun, so that a draft whose open argument has its value may as well be closed at once
(`ClosesFirst`); only words that are refused on sight come before that. And keys are only ever
appended, so that what a draft holds of them already stays in front of what it reads (`Carries`).
-/

namespace Chip8.CommandLine

/-- A word that is refused on sight, before the open argument is taken in. -/
inductive Refusal.OnSight : Refusal → Prop
  | unknown (text : String) : OnSight (.unknown text)
  | valueRefused (a : Argument) (text : String) : OnSight (.valueRefused a text)

/-- A dash and something behind it. -/
def IsOption (word : String) : Prop := ∃ c cs, word.toList = '-' :: c :: cs

/-! ## Sequences that may be refused -/

section
variable {α β γ : Type} {x : Except Refusal α} {f : α → Except Refusal β}

theorem bind_eq_ok {b : β} : x >>= f = .ok b ↔ ∃ a, x = .ok a ∧ f a = .ok b := by
  cases x with
  | error e => exact ⟨fun h => (nomatch h), fun ⟨_, h, _⟩ => (nomatch h)⟩
  | ok a => exact ⟨fun h => ⟨a, rfl, h⟩, fun ⟨_, h, hf⟩ => by cases h; exact hf⟩

theorem bind_congr_ok {g : α → Except Refusal β} (h : ∀ a, x = .ok a → f a = g a) :
    x >>= f = x >>= g := by
  cases x with
  | error e => rfl
  | ok a => exact h a rfl

theorem map_bind (g : β → γ) : (x >>= f).map g = x >>= fun a => (f a).map g := by
  cases x with
  | error e => rfl
  | ok a => rfl

theorem bind_map (x : Except Refusal α) (g : α → β) (h : β → Except Refusal γ) :
    x.map g >>= h = x >>= fun a => h (g a) := by
  cases x with
  | error e => rfl
  | ok a => rfl

end

namespace Draft

variable {α β : Type} {d d' : Draft} {a : Argument} {word : String} {words : List String}

/-- What the command line comes to if these words are left to read. -/
def finish (d : Draft) (words : List String) : Except Refusal Settings := do
  (← d.read words).settle

/-- The value of the open argument is still to come. -/
def Awaits (d : Draft) : Prop := ∃ a, d.opened = some (a, none)

/-! ## Words -/

theorem read_terminator (d : Draft) (words : List String) :
    d.read ("--" :: words) = words.foldlM positional d := rfl

theorem read_long {cs : List Char} (hne : cs ≠ []) (h : word.toList = '-' :: '-' :: cs) :
    d.read (word :: words) = d.long word (divide cs).1 (divide cs).2 >>= (·.read words) := by
  cases cs with
  | nil => exact absurd rfl hne
  | cons c cs => simp only [read, h]

theorem read_short {c : Char} {cs : List Char} (hne : c ≠ '-') (h : word.toList = '-' :: c :: cs) :
    d.read (word :: words) = d.short word (c :: cs) >>= (·.read words) := by
  simp only [read, h]
  split
  · rename_i hw
    cases hw
    exact absurd rfl hne
  · rename_i hw
    cases hw
    exact absurd rfl hne
  · rename_i hw
    cases hw
    rfl
  · rename_i hother
    exact absurd rfl (hother c cs)

theorem read_plain (h : ¬IsOption word) :
    d.read (word :: words) = d.plain word >>= (·.read words) := by
  rw [read]
  split
  · rename_i hw
    exact absurd ⟨_, _, hw⟩ h
  · rename_i hw
    exact absurd ⟨_, _, hw⟩ h
  · rename_i hw
    exact absurd ⟨_, _, hw⟩ h
  · rfl

theorem word_cases (word : String) :
    word = "--" ∨ (∃ cs, cs ≠ [] ∧ word.toList = '-' :: '-' :: cs) ∨
      (∃ c cs, c ≠ '-' ∧ word.toList = '-' :: c :: cs) ∨ ¬IsOption word := by
  by_cases h : IsOption word
  · obtain ⟨c, cs, hw⟩ := h
    by_cases hc : c = '-'
    · subst hc
      cases cs with
      | nil => exact .inl (String.toList_inj.mp hw)
      | cons c cs => exact .inr (.inl ⟨c :: cs, List.cons_ne_nil c cs, hw⟩)
    · exact .inr (.inr (.inl ⟨c, cs, hc, hw⟩))
  · exact .inr (.inr (.inr h))

/-- One word is read at a time, up to the terminator. -/
theorem read_cons (hne : word ≠ "--") (d : Draft) (words : List String) :
    d.read (word :: words) = d.read [word] >>= (·.read words) := by
  rcases word_cases word with hword | ⟨cs, hcs, hw⟩ | ⟨c, cs, hc, hw⟩ | hw
  · exact absurd hword hne
  · rw [read_long hcs hw, read_long hcs hw, bind_assoc]
    rfl
  · rw [read_short hc hw, read_short hc hw, bind_assoc]
    rfl
  · rw [read_plain hw, read_plain hw, bind_assoc]
    rfl

theorem divide_of_not_mem {cs : List Char} (h : '=' ∉ cs) : divide cs = (cs, none) := by
  have hdrop : cs.dropWhile (· != '=') = [] := by
    rw [List.dropWhile_eq_nil_iff]
    intro c hc
    exact bne_iff_ne.mpr fun e => h (e ▸ hc)
  rw [divide, hdrop]

theorem divide_append {name value : List Char} (h : '=' ∉ name) :
    divide (name ++ '=' :: value) = (name, some value) := by
  have hname : ∀ c ∈ name, (c != '=') = true := fun c hc => bne_iff_ne.mpr fun e => h (e ▸ hc)
  have hdrop : (name ++ '=' :: value).dropWhile (· != '=') = '=' :: value := by
    rw [List.dropWhile_append_of_pos hname]
    exact List.dropWhile_cons_of_neg (by simp)
  have htake : (name ++ '=' :: value).takeWhile (· != '=') = name := by
    rw [List.takeWhile_append_of_pos hname, List.takeWhile_cons_of_neg (by simp), List.append_nil]
  rw [divide, hdrop, htake]

/-! ## Closing -/

theorem close_of_closed (h : d.opened = none) : d.close = .ok d := by
  rw [close, h]

theorem close_of_opened {value : Option String} (h : d.opened = some (a, value)) :
    d.close = ({ d with opened := none } : Draft).take a value := by
  rw [close, h]

/-- What an argument that is taken in leaves alone. -/
theorem take_frame {value : Option String} (h : d.take a value = .ok d') :
    d'.opened = d.opened ∧ d'.rom.isSome = (d.rom.isSome || a == .rom) := by
  cases a with
  | rom =>
    simp only [take, bind_eq_ok] at h
    obtain ⟨path, -, h⟩ := h
    split at h
    · cases h
    · cases h
      exact ⟨rfl, (Bool.or_true _).symm⟩
  | cycles =>
    simp only [take, bind_eq_ok] at h
    obtain ⟨text, -, -, -, n, -, h⟩ := h
    cases h
    exact ⟨rfl, (Bool.or_false _).symm⟩
  | seed =>
    simp only [take, bind_eq_ok] at h
    obtain ⟨text, -, -, -, n, -, h⟩ := h
    cases h
    exact ⟨rfl, (Bool.or_false _).symm⟩
  | keys =>
    simp only [take, bind_eq_ok] at h
    obtain ⟨text, -, ks, -, h⟩ := h
    cases h
    exact ⟨rfl, (Bool.or_false _).symm⟩
  | fastForward =>
    simp only [take, bind_eq_ok] at h
    obtain ⟨-, -, h⟩ := h
    cases h
    exact ⟨rfl, (Bool.or_false _).symm⟩
  | help => cases h
  | version => cases h

theorem close_frame (h : d.close = .ok d') : d'.opened = none ∧ d'.hasRom = d.hasRom := by
  cases hopened : d.opened with
  | none =>
    rw [close_of_closed hopened] at h
    cases h
    exact ⟨hopened, rfl⟩
  | some argument =>
    obtain ⟨a, value⟩ := argument
    rw [close_of_opened hopened] at h
    obtain ⟨hnone, hrom⟩ := take_frame h
    refine ⟨hnone, ?_⟩
    simp only [hasRom, hnone, hrom, hopened]
    cases a with
    | rom => simp
    | _ => simp

/-- The step refuses on sight, or it takes in the open argument before all else; which of the two,
and what comes next, hangs on the draft only in so far as it has a path for the ROM. -/
def ClosesFirst (romGiven : Bool) (x : Draft → Except Refusal α) : Prop :=
  (∃ r : Refusal, r.OnSight ∧ ∀ d : Draft, ¬d.Awaits → d.hasRom = romGiven → x d = .error r) ∨
    ∃ f, ∀ d : Draft, ¬d.Awaits → d.hasRom = romGiven → x d = d.close >>= f

namespace ClosesFirst

variable {romGiven : Bool} {x : Draft → Except Refusal α}

theorem congr {y : Draft → Except Refusal α} (h : ClosesFirst romGiven y)
    (hxy : ∀ d : Draft, ¬d.Awaits → d.hasRom = romGiven → x d = y d) :
    ClosesFirst romGiven x := by
  rcases h with ⟨r, hr, h⟩ | ⟨f, h⟩
  · exact .inl ⟨r, hr, fun d hd hrom => (hxy d hd hrom).trans (h d hd hrom)⟩
  · exact .inr ⟨f, fun d hd hrom => (hxy d hd hrom).trans (h d hd hrom)⟩

theorem bind (h : ClosesFirst romGiven x) (f : α → Except Refusal β) :
    ClosesFirst romGiven fun d => x d >>= f := by
  rcases h with ⟨r, hr, h⟩ | ⟨g, h⟩
  · refine .inl ⟨r, hr, fun d hd hrom => ?_⟩
    simp only [h d hd hrom]
    rfl
  · refine .inr ⟨fun d => g d >>= f, fun d hd hrom => ?_⟩
    simp only [h d hd hrom, bind_assoc]

theorem give (romGiven : Bool) (a : Argument) (value : Option String) :
    ClosesFirst romGiven (·.give a value) :=
  .inr ⟨(·.take a value), fun _ _ _ => rfl⟩

theorem start (romGiven : Bool) (a : Argument) (value : Option String) :
    ClosesFirst romGiven (·.start a value) :=
  .inr ⟨_, fun _ _ _ => rfl⟩

theorem refused {r : Refusal} (h : r.OnSight) :
    ClosesFirst romGiven (fun _ => (.error r : Except Refusal α)) :=
  .inl ⟨r, h, fun _ _ _ => rfl⟩

theorem positional (romGiven : Bool) (word : String) :
    ClosesFirst romGiven (·.positional word) := by
  cases romGiven with
  | true => exact (refused (.unknown word)).congr fun d _ hrom => if_pos hrom
  | false =>
    exact (start false .rom (some word)).congr fun d _ hrom => if_neg (Bool.not_eq_true _ ▸ hrom)

theorem plain (romGiven : Bool) (word : String) : ClosesFirst romGiven (·.plain word) := by
  refine (positional romGiven word).congr fun d hd _ => ?_
  unfold Draft.plain
  split
  · rename_i a hopened
    exact absurd ⟨a, hopened⟩ hd
  · rfl

theorem long (romGiven : Bool) (word : String) (name : List Char) (value : Option (List Char)) :
    ClosesFirst romGiven (·.long word name value) := by
  unfold Draft.long
  split
  · exact refused (.unknown word)
  · split
    · exact give ..
    · exact refused (.valueRefused ..)
  · split
    · exact start ..
    · exact give ..

theorem short (romGiven : Bool) (word : String) (letter : Char) (rest : List Char) :
    ClosesFirst romGiven (·.short word (letter :: rest)) := by
  unfold Draft.short
  split
  · exact refused (.unknown word)
  · split
    · split
      · exact start ..
      · exact give ..
    · exact (give ..).bind _

theorem finish (romGiven : Bool) (words : List String) :
    ClosesFirst romGiven (·.finish words) := by
  cases words with
  | nil => exact .inr ⟨_, fun _ _ _ => rfl⟩
  | cons word words =>
    rcases word_cases word with rfl | ⟨cs, hne, hw⟩ | ⟨c, cs, hne, hw⟩ | hw
    -- the terminator itself closes nothing; the first word behind it does
    · cases words with
      | nil => exact .inr ⟨_, fun _ _ _ => rfl⟩
      | cons word words =>
        refine ((positional romGiven word).bind fun d =>
          words.foldlM Draft.positional d >>= settle).congr fun d _ _ => ?_
        rw [Draft.finish, read_terminator, List.foldlM_cons, bind_assoc]
    · refine ((long romGiven word (divide cs).1 (divide cs).2).bind
        fun d => d.finish words).congr fun d _ _ => ?_
      rw [Draft.finish, read_long hne hw, bind_assoc]
      rfl
    · refine ((short romGiven word c cs).bind fun d => d.finish words).congr fun d _ _ => ?_
      rw [Draft.finish, read_short hne hw, bind_assoc]
      rfl
    · refine ((plain romGiven word).bind fun d => d.finish words).congr fun d _ _ => ?_
      rw [Draft.finish, read_plain hw, bind_assoc]
      rfl

end ClosesFirst

theorem finish_cases (romGiven : Bool) (words : List String) :
    (∃ r : Refusal, r.OnSight ∧
      ∀ d : Draft, ¬d.Awaits → d.hasRom = romGiven → d.finish words = .error r) ∨
    ∃ f, ∀ d : Draft, ¬d.Awaits → d.hasRom = romGiven → d.finish words = d.close >>= f :=
  ClosesFirst.finish romGiven words

theorem not_awaits_of_closed (h : d.opened = none) : ¬d.Awaits := by
  rintro ⟨a, ha⟩
  rw [h] at ha
  cases ha

/-- A draft whose open argument has its value may as well be closed. -/
theorem finish_of_close (hd : ¬d.Awaits) (h : d.close = .ok d') (words : List String) :
    d.finish words = d'.finish words := by
  obtain ⟨hnone, hrom⟩ := close_frame h
  have hd' : ¬d'.Awaits := not_awaits_of_closed hnone
  rcases finish_cases d.hasRom words with ⟨r, -, hr⟩ | ⟨f, hf⟩
  · rw [hr d hd rfl, hr d' hd' hrom]
  -- closing keeps `hasRom`, so that the words come to the same `f` for both drafts
  · rw [hf d hd rfl, hf d' hd' hrom, h, close_of_closed hnone]

/-- A command line that is accepted has the open argument taken in. -/
theorem exists_close_of_finish {settings : Settings} (hd : ¬d.Awaits)
    (h : d.finish words = .ok settings) : ∃ d', d.close = .ok d' := by
  rcases finish_cases d.hasRom words with ⟨r, -, hr⟩ | ⟨f, hf⟩
  · rw [hr d hd rfl] at h
    cases h
  · rw [hf d hd rfl] at h
    obtain ⟨d', hd', -⟩ := bind_eq_ok.mp h
    exact ⟨d', hd'⟩

/-! ## Keys in front -/

/-- The draft with more keys in front of its own. -/
def withKeys (keys : List UInt8) (d : Draft) : Draft := { d with keys := keys ++ d.keys }

/-- The step keeps the keys that are there already in front, and looks at none of them. -/
def Carries (x : Draft → Except Refusal Draft) : Prop :=
  ∀ keys d, x (withKeys keys d) = (x d).map (withKeys keys)

namespace Carries

variable {x y : Draft → Except Refusal Draft}

theorem pure : Carries .ok := fun _ _ => rfl

theorem refused (r : Refusal) : Carries fun _ => .error r := fun _ _ => rfl

theorem bind (hx : Carries x) (hy : Carries y) : Carries fun d => x d >>= y := by
  intro keys d
  simp only [hx keys d, bind_map, map_bind, hy keys]

theorem take (a : Argument) (value : Option String) : Carries (·.take a value) := by
  intro keys d
  cases a with
  | rom =>
    simp only [Draft.take, map_bind]
    congr
    funext path
    split
    · rfl
    · rfl
  | keys =>
    simp only [Draft.take, map_bind]
    congr
    funext text
    congr
    funext read
    show Except.ok _ = Except.ok _
    simp only [withKeys, List.append_assoc]
  | _ =>
    simp only [Draft.take, map_bind]
    rfl

theorem close : Carries Draft.close := by
  intro keys d
  cases hopened : d.opened with
  | none =>
    have hopened' : (withKeys keys d).opened = none := hopened
    rw [close_of_closed hopened, close_of_closed hopened']
    rfl
  | some argument =>
    have hopened' : (withKeys keys d).opened = some argument := hopened
    rw [close_of_opened hopened, close_of_opened hopened']
    exact take argument.1 argument.2 keys { d with opened := none }

theorem give (a : Argument) (value : Option String) : Carries (·.give a value) :=
  close.bind (take a value)

theorem start (a : Argument) (value : Option String) : Carries (·.start a value) :=
  close.bind fun _ _ => rfl

theorem positional (word : String) : Carries (·.positional word) := by
  intro keys d
  have hrom : (withKeys keys d).hasRom = d.hasRom := rfl
  simp only [Draft.positional, hrom]
  split
  · rfl
  · exact start .rom (some word) keys d

theorem plain (word : String) : Carries (·.plain word) := by
  intro keys d
  have hopened : (withKeys keys d).opened = d.opened := rfl
  simp only [Draft.plain, hopened]
  split
  · rfl
  · exact positional word keys d

theorem long (word : String) (name : List Char) (value : Option (List Char)) :
    Carries (·.long word name value) := by
  unfold Draft.long
  split
  · exact refused _
  · split
    · exact give _ _
    · exact refused _
  · split
    · exact start _ _
    · exact give _ _

theorem short (word : String) (letters : List Char) : Carries (·.short word letters) := by
  induction letters with
  | nil => exact pure
  | cons letter rest ih =>
    unfold Draft.short
    split
    · exact refused _
    · split
      · split
        · exact start _ _
        · exact give _ _
      · exact (give _ _).bind ih

theorem foldlM_positional (words : List String) : Carries (words.foldlM Draft.positional) := by
  induction words with
  | nil => exact pure
  | cons word words ih => exact (positional word).bind ih

theorem read (words : List String) : Carries (·.read words) := by
  induction words with
  | nil => exact pure
  | cons word words ih =>
    intro keys d
    rcases word_cases word with rfl | ⟨cs, hne, hw⟩ | ⟨c, cs, hne, hw⟩ | hw
    · exact foldlM_positional words keys d
    · simp only [read_long hne hw]
      exact (long word (divide cs).1 (divide cs).2).bind ih keys d
    · simp only [read_short hne hw]
      exact (short word (c :: cs)).bind ih keys d
    · simp only [read_plain hw]
      exact (plain word).bind ih keys d

end Carries

/-- Keys that were read already come first among those of the settings. -/
theorem finish_withKeys (keys : List UInt8) (d : Draft) (words : List String) :
    (withKeys keys d).finish words =
      (d.finish words).map fun s => { s with keys := keys ++ s.keys } := by
  have hread : (withKeys keys d).read words = (d.read words).map (withKeys keys) :=
    Carries.read words keys d
  simp only [finish, settle, hread, bind_map, map_bind, Carries.close keys]
  congr
  funext d
  congr
  funext d
  cases hrom : d.rom with
  | none =>
    have hrom' : (withKeys keys d).rom = none := hrom
    simp only [hrom']
    rfl
  | some rom =>
    have hrom' : (withKeys keys d).rom = some rom := hrom
    simp only [hrom']
    rfl

end Draft

end Chip8.CommandLine
