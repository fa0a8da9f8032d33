import Chip8.Proofs.Calls
import Chip8.Proofs.Stepping

/-!
# Moves of a machine

What can happen to a machine with any keypad and any source, each move labelled with the
instruction that it performs, if it performs one. A driver may exchange the keypad and set the
timers at any time; an opcode may be executed in either mode. `Move.cases` is the only place that
looks at the kinds of moves: a move performs a well-formed instruction that does not fault, or it
is quiet. `Reachable` closes a fresh machine under moves and resets. Whoever calls a machine, a
console or a machine by steps only makes moves and resets, so that what is reachable holds on every
such run.
-/

namespace Chip8.Machine

open Chip8.Action (runCalls runCalls_keeps)

variable {κ ρ : Type} [Keypad κ] [ByteSource ρ] {m t : Machine κ ρ} {label : Option Instruction}

/-- The instruction that an opcode performs; none if it faults. -/
def performedBy? (m : Machine κ ρ) (w : Opcode) : Option Instruction :=
  match (execute w m).1 with
  | .ok _ => Instruction.decode? w
  | .error _ => none

inductive Move : Machine κ ρ → Option Instruction → Machine κ ρ → Prop
  | execute (m : Machine κ ρ) (w : Opcode) : Move m (m.performedBy? w) (execute w m).2
  | step (m : Machine κ ρ) : Move m m.performed? (step m).2
  | load {m t : Machine κ ρ} {program : Array UInt8} : m.load program = .ok t → Move m none t
  | takeRedraw (m : Machine κ ρ) : Move m none m.takeRedraw.2
  | timers (m : Machine κ ρ) (delay sound : Countdown) : Move m none { m with delay, sound }
  | keypad (m : Machine κ ρ) (keypad : κ) : Move m none { m with keypad }

/-- Moves one after another; those that perform no instruction leave no trace in the list. -/
inductive Moves : Machine κ ρ → List Instruction → Machine κ ρ → Prop
  | nil (m : Machine κ ρ) : Moves m [] m
  | cons {m t u : Machine κ ρ} {label : Option Instruction} {trace : List Instruction} :
      Move m label t → Moves t trace u → Moves m (label.toList ++ trace) u

/-- What a move leaves that performs no instruction. -/
structure Quiet (m t : Machine κ ρ) : Prop where
  stack : t.stack = m.stack
  index : t.index = m.index
  mode : t.mode = m.mode ∨ t.mode = .running
  reserved : ∀ a < programStart, t.memory.byte a = m.memory.byte a

inductive Reachable : Machine κ ρ → Prop
  | fresh (keypad : κ) (source : ρ) : Reachable (fresh keypad source)
  | move {m t : Machine κ ρ} {label : Option Instruction} :
      Reachable m → Move m label t → Reachable t
  | reset {m : Machine κ ρ} : Reachable m → Reachable m.reset

/-! ## One move -/

theorem performedBy?_eq_some {w : Opcode} {i : Instruction} :
    m.performedBy? w = some i ↔ Instruction.decode? w = some i ∧ m.fault? i = none := by
  rw [performedBy?, execute_eq]
  cases hd : Instruction.decode? w with
  | none => simp
  | some j =>
    cases hf : m.fault? j with
    | some e =>
      simp only [hf, reduceCtorEq, Option.some.injEq, false_iff, not_and]
      rintro rfl
      rw [hf]
      exact Option.some_ne_none e
    | none =>
      simp only [hf, Option.some.injEq]
      exact ⟨fun e => ⟨e, e ▸ hf⟩, fun e => e.1⟩

theorem execute_of_performedBy? {w : Opcode} {i : Instruction}
    (h : m.performedBy? w = some i) : execute w m = (.ok (), m.executed i) :=
  execute_ok_iff.mpr ⟨i, (performedBy?_eq_some.mp h).1, (performedBy?_eq_some.mp h).2, rfl⟩

theorem execute_of_not_performedBy? {w : Opcode} (h : m.performedBy? w = none) :
    (execute w m).2 = m := by
  unfold performedBy? at h
  rcases hr : execute w m with ⟨_ | _, t⟩
  · exact (execute_error_iff.mp hr).1
  · obtain ⟨i, hd, -, -⟩ := execute_ok_iff.mp hr
    rw [hr] at h
    cases hd.symm.trans h

omit [Keypad κ] [ByteSource ρ] in
theorem Quiet.refl (m : Machine κ ρ) : m.Quiet m := ⟨rfl, rfl, .inl rfl, fun _ _ => rfl⟩

theorem Move.cases (h : Move m label t) :
    (∃ i, label = some i ∧ i.WellFormed ∧ m.fault? i = none ∧ t = m.executed i) ∨
    label = none ∧ m.Quiet t := by
  cases h with
  | execute w =>
    cases hp : m.performedBy? w with
    | none =>
      rw [execute_of_not_performedBy? hp]
      exact .inr ⟨rfl, .refl m⟩
    | some i =>
      obtain ⟨hd, hf⟩ := performedBy?_eq_some.mp hp
      exact .inl ⟨i, rfl, Instruction.wellFormed_of_decode? hd, hf,
        congrArg Prod.snd (execute_of_performedBy? hp)⟩
  | step =>
    cases hm : m.mode with
    | running =>
      rcases step_cases hm with ⟨hp, e, hs⟩ | ⟨i, hp, hi, hf, hs⟩
      · rw [hp, hs]
        exact .inr ⟨rfl, .refl m⟩
      · rw [hp, hs]
        exact .inl ⟨i, rfl, hi, hf, rfl⟩
    | awaitingKey x =>
      obtain ⟨registers, pc, mode, keypad, hs, hmode⟩ := step_awaiting_frame hm
      rw [performed?_of_awaiting hm, hs]
      exact .inr ⟨rfl, rfl, rfl, hmode.imp_left (·.trans hm.symm), fun _ _ => rfl⟩
  | load hl =>
    obtain ⟨-, rfl⟩ := load_eq_ok_iff.mp hl
    exact .inr ⟨rfl, rfl, rfl, .inl rfl, fun a ha => Memory.byte_overlay_of_outside (.inl ha)⟩
  | takeRedraw | timers | keypad => exact .inr ⟨rfl, rfl, rfl, .inl rfl, fun _ _ => rfl⟩

/-! ## Reachable machines -/

namespace Reachable

theorem moves {trace : List Instruction} (h : m.Reachable) (hmoves : Moves m trace t) :
    t.Reachable := by
  induction hmoves with
  | nil => exact h
  | cons hmove _ ih => exact ih (h.move hmove)

/-- A program that is refused is no move, but changes nothing. -/
theorem load (h : m.Reachable) (program : Array UInt8) :
    (Action.change (Machine.load · program) m).2.Reachable := by
  cases hl : m.load program with
  | error e =>
    rw [Action.change_apply_error hl]
    exact h
  | ok t =>
    rw [Action.change_apply_ok hl]
    exact h.move (.load hl)

end Reachable

/-! ## Driving by steps -/

/-- What a driver calls that runs instructions through steps only. Timers may be set and ticked and
keys pressed, released and polled at any time, so any timers and any keypad may be left behind. -/
inductive Drive (κ : Type) where
  | load (program : Array UInt8)
  | step
  | reset
  | takeRedraw
  | timers (delay sound : Countdown)
  | keypad (keypad : κ)

def drive : Drive κ → Action (Machine κ ρ) Unit
  | .load program => .change (·.load program)
  | .step => do let _ ← Machine.step
  | .reset => .modify Machine.reset
  | .takeRedraw => .modify (·.takeRedraw.2)
  | .timers delay sound => .modify fun m => { m with delay, sound }
  | .keypad keypad => .modify fun m => { m with keypad }

theorem drive_step (m : Machine κ ρ) : (drive .step m).2 = (step m).2 :=
  congrArg Prod.snd (Action.bind_pure_apply step (fun _ => ()) m)

theorem drive_load {m t : Machine κ ρ} {program : Array UInt8} (h : m.load program = .ok t) :
    (drive (.load program) m).2 = t :=
  congrArg Prod.snd (Action.change_apply_ok h)

/-- Loading changes memory, if anything. -/
theorem drive_load_frame (m : Machine κ ρ) (program : Array UInt8) :
    ∃ memory, (drive (.load program) m).2 = { m with memory } := by
  cases hl : m.load program with
  | error e => exact ⟨m.memory, congrArg Prod.snd (Action.change_apply_error hl)⟩
  | ok t =>
    obtain ⟨-, rfl⟩ := load_eq_ok_iff.mp hl
    exact ⟨_, drive_load hl⟩

theorem Reachable.drive (h : m.Reachable) (d : Drive κ) : (Machine.drive d m).2.Reachable := by
  cases d with
  | load program => exact h.load program
  | step =>
    rw [drive_step]
    exact h.move (.step m)
  | reset => exact h.reset
  | takeRedraw => exact h.move (.takeRedraw m)
  | timers delay sound => exact h.move (.timers m delay sound)
  | keypad keypad => exact h.move (.keypad m keypad)

theorem Reachable.runDrives (h : m.Reachable) (drives : List (Drive κ)) :
    (runCalls Machine.drive m drives).Reachable :=
  runCalls_keeps (fun d _ _ hm => hm.drive d) h

/-! ## Calls with the hexadecimal keypad -/

namespace Reachable

variable {m : Machine HexPad ρ}

theorem changeKeypad (h : m.Reachable) (f : HexPad → Except Fault HexPad) :
    (Machine.changeKeypad f m).2.Reachable := by
  obtain ⟨keypad, hk⟩ := changeKeypad_frame f m
  rw [hk]
  exact h.move (.keypad m keypad)

theorem act (h : m.Reachable) (call : Call) : (Machine.act call m).2.Reachable := by
  cases call with
  | load program => exact h.load program
  | execute w => exact h.move (.execute m w)
  | step =>
    rw [act_step]
    exact h.move (.step m)
  | reset => exact h.reset
  | takeRedraw => exact h.move (.takeRedraw m)
  | setDelay b => exact h.move (.timers m ⟨b⟩ m.sound)
  | setSound b => exact h.move (.timers m m.delay ⟨b⟩)
  | tickDelay => exact h.move (.timers m m.delay.tick m.sound)
  | tickSound => exact h.move (.timers m m.delay m.sound.tick)
  | press key => exact h.changeKeypad (·.press key)
  | release key => exact h.changeKeypad (·.release key)
  | pollPress => exact h.move (.keypad m m.keypad.takePress.2)
  | clearPresses => exact h.move (.keypad m m.keypad.forgetPress)

theorem runCalls (h : m.Reachable) (calls : List Call) :
    (Action.runCalls Machine.act m calls).Reachable :=
  runCalls_keeps (fun call _ _ hm => hm.act call) h

theorem console {c : Console ρ} (h : c.machine.Reachable) (calls : List Console.Call) :
    (Action.runCalls Console.act c calls).machine.Reachable :=
  Console.runCalls_machine_keeps (fun call _ hm => hm.act call) h calls

end Reachable

end Chip8.Machine
