import Chip8.Event
import Chip8.Keypad.HexPad

/-!
# The console

A machine with the hexadecimal keypad, the ROM that a reset loads again, and the counter that paces
the timers: they tick when it stands at zero, after which it starts again from `cyclesPerTick`.
-/

namespace Chip8

structure Console (ρ : Type) where
  machine : Machine HexPad ρ
  rom : Array UInt8
  counter : Nat
  deriving DecidableEq

namespace Console

variable {ρ : Type}

def fresh (source : ρ) : Console ρ := ⟨.fresh .idle source, #[], 0⟩

/-- Runs an action of the machine. -/
def onMachine {α : Type} (x : Action (Machine HexPad ρ) α) : Action (Console ρ) α := fun c =>
  let (result, machine) := x c.machine
  (result, { c with machine })

/-! ## Operations -/

/-- A ROM that does not fit is not remembered either. -/
def load (rom : Array UInt8) : Action (Console ρ) Unit :=
  .change fun c => (c.machine.load rom).map fun machine => { c with machine, rom }

def stepMachine [ByteSource ρ] : Action (Console ρ) Mode := onMachine Machine.step

def paceTimers (c : Console ρ) : Console ρ :=
  if c.counter = 0 then { c with machine := c.machine.tickTimers, counter := cyclesPerTick }
  else { c with counter := c.counter - 1 }

def withKeypad (c : Console ρ) (keypad : HexPad) : Console ρ :=
  { c with machine := { c.machine with keypad } }

def press (key : UInt8) : Action (Console ρ) Unit :=
  .change fun c => (c.machine.keypad.press key).map c.withKeypad

def release (key : UInt8) : Action (Console ρ) Unit :=
  .change fun c => (c.machine.keypad.release key).map c.withKeypad

/-- The screen, if it was drawn to since it was last taken. -/
def takeFrame (c : Console ρ) : Option Screen × Console ρ :=
  let (redraw, machine) := c.machine.takeRedraw
  (if redraw then some machine.screen else none, { c with machine })

def isBuzzing (c : Console ρ) : Bool := c.machine.sound.isActive

/-- Starts the remembered ROM from a fresh machine. -/
def reset : Action (Console ρ) Unit := do
  .modify fun c => { c with machine := c.machine.reset }
  .change fun c => (c.machine.load c.rom).map fun machine => { c with machine }
  .modify fun c => { c with counter := 0 }

/-! ## Their events -/

def loadEvents (c : Console ρ) (rom : Array UInt8) : List Event := c.machine.loadEvents rom

def resetEvents (c : Console ρ) : List Event :=
  .reset :: c.machine.reset.loadEvents c.rom ++
    match c.machine.reset.load c.rom with
    | .ok _ => [.restarted c.rom.size]
    | .error _ => []

end Console

end Chip8
