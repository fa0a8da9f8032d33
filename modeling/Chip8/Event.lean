import Chip8.Instruction.Mnemonic
import Chip8.Machine.Step

/-!
# Events

What happens in a machine, as records with a level and a text. The machine does not collect them:
each operation has a function that names the events of running it on a given machine.
-/

namespace Chip8

inductive Level where
  | trace
  | debug
  | info
  | warn
  | error
  deriving DecidableEq, Repr

def Level.name : Level → String
  | trace => "TRACE"
  | debug => "DEBUG"
  | info => "INFO"
  | warn => "WARN"
  | error => "ERROR"

inductive Event where
  | loaded (size : Nat)
  | reset
  /-- An instruction is about to be performed on these registers and this index. -/
  | executing (pc opcode : UInt16) (instruction : Instruction) (registers : Registers)
      (index : UInt16)
  | awaiting (register : UInt8) (pc : UInt16)
  | resumed (key register : UInt8) (pc : UInt16)
  | restarted (size : Nat)
  | romRead (size : Nat) (path : String)
  /-- A key is awaited after `cycle` cycles and none is left. -/
  | starved (register : UInt8) (cycle : Nat)
  | halted (cycle : Nat) (pc : UInt16) (fault : Fault)
  deriving DecidableEq

namespace Event

def level : Event → Level
  | executing .. => .trace
  | loaded _ | reset | awaiting .. | resumed .. | restarted _ => .debug
  | romRead .. => .info
  | starved .. => .warn
  | halted .. => .error

private def registerText (x : UInt8) : String := "V" ++ Hex.upper 1 x.toNat

private def addressText (a : UInt16) : String := Hex.marked 3 a.toNat

def text : Event → String
  | loaded size => s!"loaded {size} byte program at {Hex.marked 3 programStart}"
  | reset => "reset"
  | executing pc opcode i v index =>
    let cells := ", ".intercalate (v.toList.map fun b => Hex.upper 2 b.toNat)
    " ".intercalate [Hex.upper 4 pc.toNat, Hex.upper 4 opcode.toNat, i.mnemonic,
      "v[" ++ cells ++ "]", "i" ++ Hex.upper 4 index.toNat]
  | awaiting x pc => s!"awaiting key for {registerText x} at {addressText pc}"
  | resumed key x pc =>
    s!"key {Hex.upper 1 key.toNat} stored in {registerText x}, resuming at {addressText pc}"
  | restarted size => s!"machine reset with {size} byte rom"
  | romRead size path => s!"loaded {size} byte ROM from {path}"
  | starved x cycle =>
    s!"{registerText x} is waiting for a key and none are left; halting after {cycle} cycles"
  | halted cycle pc fault =>
    s!"halting after {cycle} cycles at {addressText pc}: {fault.message}"

/-- The level and the text on one line. -/
def line (e : Event) : String := e.level.name ++ " " ++ e.text

end Event

namespace Machine

variable {κ ρ : Type}

def loadEvents (m : Machine κ ρ) (program : Array UInt8) : List Event :=
  match m.load program with
  | .ok _ => [.loaded program.size]
  | .error _ => []

/-- An opcode that does not decode leaves no trace; one that faults later does. -/
def executeEvents (m : Machine κ ρ) (w : Opcode) : List Event :=
  match Instruction.decode? w with
  | none => []
  | some i =>
    let trace := Event.executing m.pc w i m.registers m.index
    match i with
    | .awaitKey x => [trace, .awaiting x m.pc]
    | _ => [trace]

def stepEvents [Keypad κ] (m : Machine κ ρ) : List Event :=
  match m.mode with
  | .running =>
    match m.fetch with
    | .ok w => m.executeEvents w
    | .error _ => []
  | .awaitingKey x =>
    match (Keypad.nextPress m.keypad).1 with
    | some key => if key ≤ 0xF then [.resumed key x (m.pc + 2)] else []
    | none => []

end Machine

end Chip8
