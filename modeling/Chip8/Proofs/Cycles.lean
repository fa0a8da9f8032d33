import Chip8.Proofs.Programs
import Chip8.Session

/-!
# Cycles of a session

The five ways a cycle can go, each with the session it leaves, and the instructions that a run
performs.
-/

namespace Chip8

/-- The keypad after a key was pressed and released. -/
def HexPad.tapped (p : HexPad) (key : UInt8) : HexPad :=
  ⟨p.held.setIfInBounds key.toNat false, p.pending <|> some key⟩

namespace Session

variable {ρ : Type}

/-! ## Taps -/

theorem tap_eq {key : UInt8} (h : key ≤ 0xF) (c : Console ρ) :
    tap key c = (.ok (), c.withKeypad (c.machine.keypad.tapped key)) := by
  have hlt : key.toNat < keyCount := HexPad.le_iff_lt.mp h
  have hpress : c.machine.keypad.press key = .ok _ := dif_pos hlt
  have hrelease : HexPad.release ⟨c.machine.keypad.held.set key.toNat true hlt,
      c.machine.keypad.pending <|> some key⟩ key = .ok _ := dif_pos hlt
  unfold tap
  rw [Action.bind_apply_ok (Console.press_ok hpress), Console.release_ok hrelease]
  simp only [Console.withKeypad, HexPad.tapped]
  congr
  ext j hj
  rw [Vector.getElem_setIfInBounds, Vector.getElem_set, Vector.getElem_set]
  split
  · rfl
  · rfl

theorem tap_refused {key : UInt8} (h : ¬key ≤ 0xF) (c : Console ρ) :
    tap key c = (.error (.noSuchKey key), c) := by
  have hpress : c.machine.keypad.press key = .error (.noSuchKey key) :=
    dif_neg fun hlt => h (HexPad.le_iff_lt.mpr hlt)
  exact Action.bind_apply_error (Console.press_error hpress)

/-! ## Cycles -/

variable [ByteSource ρ] {s : Session ρ}

/-- The session behind the step of a cycle. -/
def stepped (s : Session ρ) : Session ρ :=
  { s with console := (Console.stepMachine s.console).2 }

theorem cycle_running (h : (Console.stepMachine s.console).1 = .ok .running) :
    s.cycle = (finishCycle s.stepped, none) := by
  have hs : Console.stepMachine s.console = (.ok .running, s.stepped.console) := Prod.ext h rfl
  rw [cycle, hs]
  rfl

theorem cycle_faulted {e : Fault} (h : (Console.stepMachine s.console).1 = .error e) :
    s.cycle = (s.stepped, some (.faulted e)) := by
  have hs : Console.stepMachine s.console = (.error e, s.stepped.console) := Prod.ext h rfl
  rw [cycle, hs]
  rfl

section
variable {x key : UInt8} {keys : List UInt8}
  (h : (Console.stepMachine s.console).1 = .ok (.awaitingKey x))
include h

theorem cycle_starved (hkeys : s.keys = []) : s.cycle = (s.stepped, some (.starved x)) := by
  rcases s with ⟨console, _, frame, elapsed⟩
  obtain rfl : _ = [] := hkeys
  have hs : Console.stepMachine console = (.ok (.awaitingKey x), _) := Prod.ext h rfl
  rw [cycle, hs]
  rfl

theorem cycle_fed (hkeys : s.keys = key :: keys) (hkey : key ≤ 0xF) :
    s.cycle = (finishCycle { s.stepped with
      console := s.stepped.console.withKeypad (s.stepped.console.machine.keypad.tapped key)
      keys }, none) := by
  have hs : Console.stepMachine s.console = (.ok (.awaitingKey x), s.stepped.console) :=
    Prod.ext h rfl
  rw [cycle, hs, hkeys]
  simp only [tap_eq hkey]
  rfl

theorem cycle_refused (hkeys : s.keys = key :: keys) (hkey : ¬key ≤ 0xF) :
    s.cycle = ({ s.stepped with keys }, some (.refused (.noSuchKey key))) := by
  have hs : Console.stepMachine s.console = (.ok (.awaitingKey x), s.stepped.console) :=
    Prod.ext h rfl
  rw [cycle, hs, hkeys]
  simp only [tap_refused hkey]
  rfl

end

/-! ## Runs -/

/-- The instructions that a run performs, in order. -/
def performed : (budget : Nat) → Session ρ → List Instruction
  | 0, _ => []
  | budget + 1, s =>
    s.console.machine.performed?.toList ++
      match s.cycle with
      | (t, none) => performed budget t
      | (_, some _) => []

end Session

end Chip8
