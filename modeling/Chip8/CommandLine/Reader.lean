import Chip8.CommandLine.Key
import Chip8.CommandLine.Settings

/-!
# Reading the command line

Words are read from left to right. An argument that takes a value stays open until the next argument
is begun, and only then is its value read: so a bad value is reported after an unknown argument
behind it. `--` ends the options, and each word behind it is positional.

- `--name` and `--name=value`; a flag refuses a value.
- `-abc` for several letters at once; the first letter that takes a value takes the rest of the
  word, less an equals sign in front, or else the next word.
- a word that starts with a dash is never the value of an option in front of it; a dash alone is an
  ordinary word.
-/

namespace Chip8.CommandLine

/-- The arguments read so far. -/
structure Draft where
  rom : Option String
  cycles : Option Nat
  seed : Option UInt64
  keys : List UInt8
  fastForward : Bool
  /-- The argument that is open, and its value if it has one already. -/
  opened : Option (Argument × Option String)
  deriving DecidableEq, Repr

namespace Draft

def empty : Draft := ⟨none, none, none, [], false, none⟩

/-! ## Values -/

def readNumber (a : Argument) (text : String) : Except Refusal Nat :=
  match Numeral.read? 10 numberLimit text.toList with
  | some n => .ok n
  | none => .error (.badValue a text)

/-- The keys of a list with commas between them; every piece has to be a key. -/
def readKeys (text : String) : Except Refusal (List UInt8) :=
  match (text.toList.splitOn ',').mapM readKey? with
  | some keys => .ok keys
  | none => .error (.badValue .keys text)

def requireValue (a : Argument) : Option String → Except Refusal String
  | some text => .ok text
  | none => .error (.noValue a)

def requireFirst (a : Argument) (given : Bool) : Except Refusal Unit :=
  if given then .error (.repeated a) else .ok ()

/-- Takes an argument in. -/
def take (d : Draft) (a : Argument) (value : Option String) : Except Refusal Draft := do
  match a with
  | .rom =>
    let path ← requireValue a value
    if path.isEmpty then .error (.noValue a) else .ok { d with rom := some path }
  | .cycles =>
    let text ← requireValue a value
    requireFirst a d.cycles.isSome
    return { d with cycles := some (← readNumber a text) }
  | .seed =>
    let text ← requireValue a value
    requireFirst a d.seed.isSome
    return { d with seed := some (UInt64.ofNat (← readNumber a text)) }
  | .keys =>
    let text ← requireValue a value
    return { d with keys := d.keys ++ (← readKeys text) }
  | .fastForward =>
    requireFirst a d.fastForward
    return { d with fastForward := true }
  | .help => .error .helpWanted
  | .version => .error .versionWanted

/-- Takes in the open argument, if there is one. -/
def close (d : Draft) : Except Refusal Draft :=
  match d.opened with
  | some (a, value) => { d with opened := none }.take a value
  | none => .ok d

/-! ## Words -/

/-- An argument that is complete. -/
def give (d : Draft) (a : Argument) (value : Option String) : Except Refusal Draft := do
  (← d.close).take a value

/-- An argument whose value may still come. -/
def start (d : Draft) (a : Argument) (value : Option String) : Except Refusal Draft := do
  return { ← d.close with opened := some (a, value) }

def hasRom (d : Draft) : Bool :=
  d.rom.isSome || (d.opened.map (·.1)) == some .rom

def positional (d : Draft) (word : String) : Except Refusal Draft :=
  if d.hasRom then .error (.unknown word) else d.start .rom (some word)

/-- A word that is no option: a value if one is awaited, else positional. -/
def plain (d : Draft) (word : String) : Except Refusal Draft :=
  match d.opened with
  | some (a, none) => .ok { d with opened := some (a, some word) }
  | _ => d.positional word

/-- An option by its long name. -/
def long (d : Draft) (word : String) (name : List Char) (value : Option (List Char)) :
    Except Refusal Draft :=
  match Argument.ofName? name, value.map String.ofList with
  | none, _ => .error (.unknown word)
  | some a, some v => if a.takesValue then d.give a (some v) else .error (.valueRefused a v)
  | some a, none => if a.takesValue then d.start a none else d.give a none

def stripEquals : List Char → List Char
  | '=' :: cs => cs
  | cs => cs

/-- Options by their letters. -/
def short (d : Draft) (word : String) : List Char → Except Refusal Draft
  | [] => .ok d
  | letter :: rest =>
    match Argument.ofLetter? letter with
    | none => .error (.unknown word)
    | some a =>
      if a.takesValue then
        if rest.isEmpty then d.start a none
        else d.give a (some (String.ofList (stripEquals rest)))
      else do
        short (← d.give a none) word rest

/-- The name and the value of a long option, divided at the first equals sign. -/
def divide (cs : List Char) : List Char × Option (List Char) :=
  match cs.dropWhile (· != '=') with
  | [] => (cs, none)
  | _ :: value => (cs.takeWhile (· != '='), some value)

def read (d : Draft) : List String → Except Refusal Draft
  | [] => .ok d
  | word :: words =>
    match word.toList with
    | ['-', '-'] => words.foldlM positional d
    | '-' :: '-' :: cs => do read (← d.long word (divide cs).1 (divide cs).2) words
    | '-' :: c :: cs => do read (← d.short word (c :: cs)) words
    | _ => do read (← d.plain word) words

/-- Without a ROM there is nothing to run. -/
def settle (d : Draft) : Except Refusal Settings := do
  let d ← d.close
  match d.rom with
  | none => .error .missingRom
  | some rom =>
    return {
      rom
      cycles := d.cycles.getD defaultCycles
      seed := d.seed
      keys := d.keys
      fastForward := d.fastForward }

end Draft

/-- Reads the words behind the program's name. -/
def read (words : List String) : Except Refusal Settings := do
  (← Draft.empty.read words).settle

end Chip8.CommandLine
