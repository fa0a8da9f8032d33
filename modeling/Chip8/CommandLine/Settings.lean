/-!
# Settings

What the command line asks for, and why a command line asks for nothing that can be run.
-/

namespace Chip8.CommandLine

structure Settings where
  rom : String
  cycles : Nat
  seed : Option UInt64
  /-- The keys to press, one for each wait. -/
  keys : List UInt8
  /-- Do not wait for the clock. -/
  fastForward : Bool
  deriving DecidableEq, Repr

def defaultCycles : Nat := 2000

/-- The largest number of cycles or seed. -/
def numberLimit : Nat := 0xFFFFFFFFFFFFFFFF

/-- The arguments a command line can hold. -/
inductive Argument where
  | rom
  | cycles
  | seed
  | keys
  | fastForward
  | help
  | version
  deriving DecidableEq, Repr

namespace Argument

/-- The long names, written behind two dashes. -/
def named : List (String × Argument) := [
  ("cycles", cycles), ("seed", seed), ("keys", keys), ("fast-forward", fastForward),
  ("help", help), ("version", version)]

/-- The short names, written behind one dash. -/
def lettered : List (Char × Argument) := [
  ('c', cycles), ('s', seed), ('k', keys), ('f', fastForward), ('h', help), ('V', version)]

def ofName? (name : List Char) : Option Argument := named.lookup (String.ofList name)

def ofLetter? (letter : Char) : Option Argument := lettered.lookup letter

def takesValue : Argument → Bool
  | rom | cycles | seed | keys => true
  | fastForward | help | version => false

def name (a : Argument) : String :=
  match named.find? fun p => p.2 = a with
  | some (name, _) => "--" ++ name
  | none => "<ROM>"

end Argument

/-- Why there is nothing to run. -/
inductive Refusal where
  | helpWanted
  | versionWanted
  | missingRom
  | unknown (text : String)
  /-- No value follows, or the value is empty where it may not be. -/
  | noValue (argument : Argument)
  | badValue (argument : Argument) (text : String)
  /-- An argument that may stand once stands twice. -/
  | repeated (argument : Argument)
  /-- A value is attached to a flag. -/
  | valueRefused (argument : Argument) (text : String)
  deriving DecidableEq, Repr

namespace Refusal

/-- Asking for help or for the version is no misuse. -/
def exitCode : Refusal → UInt8
  | helpWanted | versionWanted => 0
  | _ => 2

def message : Refusal → String
  | helpWanted | versionWanted => ""
  | missingRom => "a ROM is required"
  | unknown text => s!"unexpected argument {text}"
  | noValue a => s!"a value is required for {a.name}"
  | badValue a text => s!"invalid value {text} for {a.name}"
  | repeated a => s!"the argument {a.name} cannot be used multiple times"
  | valueRefused a text => s!"unexpected value {text} for {a.name}"

end Refusal

end Chip8.CommandLine
