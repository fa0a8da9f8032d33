import Chip8.CallStack
import Chip8.Countdown
import Chip8.Memory
import Chip8.Registers
import Chip8.Screen.Basic

/-!
# The machine

Everything an instruction can read or change, over a keypad `κ` and a source of random bytes `ρ`.
-/

namespace Chip8

inductive Mode where
  | running
  /-- Waiting for a key press to store in a register. -/
  | awaitingKey (register : UInt8)
  deriving DecidableEq, Repr, Inhabited

structure Machine (κ ρ : Type) where
  registers : Registers
  index : UInt16
  pc : UInt16
  stack : CallStack
  delay : Countdown
  sound : Countdown
  memory : Memory
  screen : Screen
  /-- The screen was drawn to since the frame was last taken. -/
  redraw : Bool
  mode : Mode
  keypad : κ
  source : ρ
  deriving DecidableEq

namespace Machine

variable {κ ρ : Type}

def fresh (keypad : κ) (source : ρ) : Machine κ ρ where
  registers := .zeros
  index := 0
  pc := UInt16.ofNat programStart
  stack := .empty
  delay := .stopped
  sound := .stopped
  memory := .fresh
  screen := .blank
  redraw := false
  mode := .running
  keypad := keypad
  source := source

/-- The fresh machine with the same keypad and source, its blank screen still to be shown. -/
def reset (m : Machine κ ρ) : Machine κ ρ := { fresh m.keypad m.source with redraw := true }

def load (m : Machine κ ρ) (program : Array UInt8) : Except Fault (Machine κ ρ) :=
  (m.memory.load program).map fun memory => { m with memory }

def takeRedraw (m : Machine κ ρ) : Bool × Machine κ ρ := (m.redraw, { m with redraw := false })

def fetch (m : Machine κ ρ) : Except Fault UInt16 := m.memory.readWord m.pc.toNat

/-- Counts both timers down. -/
def tickTimers (m : Machine κ ρ) : Machine κ ρ :=
  { m with delay := m.delay.tick, sound := m.sound.tick }

end Machine

end Chip8
