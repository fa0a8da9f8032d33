import Chip8.Console

/-!
# Sessions

A session runs a console for a budget of cycles and feeds it scripted keys, one for each wait: the
key is pressed and released in the cycle that reports the wait, and the machine takes it up in the
next one. It keeps the last frame that was drawn. A session ends before its budget is spent if the
machine faults, if a scripted key is refused, or if a key is awaited and none is left; the timers
do not advance and no frame is taken in such a cycle.
-/

namespace Chip8

inductive Ending where
  /-- The budget is spent. -/
  | spent
  | starved (register : UInt8)
  | faulted (fault : Fault)
  /-- The keypad refused a scripted key. -/
  | refused (fault : Fault)
  deriving DecidableEq, Repr

/-- What went wrong; running out of cycles or of keys is no failure. -/
def Ending.fault? : Ending → Option Fault
  | spent | starved _ => none
  | faulted e | refused e => some e

structure Session (ρ : Type) where
  console : Console ρ
  keys : List UInt8
  frame : Option Screen
  /-- How many cycles were completed. -/
  elapsed : Nat
  deriving DecidableEq

namespace Session

variable {ρ : Type}

def start (console : Console ρ) (keys : List UInt8) : Session ρ := ⟨console, keys, none, 0⟩

/-- Presses a key and lets go of it. -/
def tap (key : UInt8) : Action (Console ρ) Unit := do
  Console.press key
  Console.release key

/-- The part of a cycle behind the CPU: timers, then the frame. -/
def finishCycle (s : Session ρ) : Session ρ :=
  let (frame, console) := s.console.paceTimers.takeFrame
  { s with console, frame := frame <|> s.frame, elapsed := s.elapsed + 1 }

/-- One cycle, and the ending if it is the last one. -/
def cycle [ByteSource ρ] (s : Session ρ) : Session ρ × Option Ending :=
  match Console.stepMachine s.console with
  | (.ok .running, console) => (finishCycle { s with console }, none)
  | (.ok (.awaitingKey x), console) =>
    match s.keys with
    | [] => ({ s with console }, some (.starved x))
    | key :: keys =>
      match tap key console with
      | (.ok (), console) => (finishCycle { s with console, keys }, none)
      | (.error e, console) => ({ s with console, keys }, some (.refused e))
  | (.error e, console) => ({ s with console }, some (.faulted e))

def run [ByteSource ρ] : (budget : Nat) → Session ρ → Session ρ × Ending
  | 0, s => (s, .spent)
  | budget + 1, s =>
    match s.cycle with
    | (s, none) => run budget s
    | (s, some ending) => (s, ending)

/-! ## Events -/

def cycleEvents [ByteSource ρ] (s : Session ρ) : List Event :=
  s.console.machine.stepEvents ++
    match s.cycle with
    | (_, some (.starved x)) => [.starved x s.elapsed]
    | (t, some (.faulted e)) => [.halted s.elapsed t.console.machine.pc e]
    | _ => []

/-- The events of a run, in order. -/
def runEvents [ByteSource ρ] : (budget : Nat) → Session ρ → List Event
  | 0, _ => []
  | budget + 1, s =>
    s.cycleEvents ++
      match s.cycle with
      | (s, none) => runEvents budget s
      | (_, some _) => []

end Session

end Chip8
