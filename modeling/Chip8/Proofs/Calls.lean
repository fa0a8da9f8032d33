import Chip8.Console

/-!
# Calls

What a driver can ask of a machine with the hexadecimal keypad, or of a console, in any order and
at any time. A call that fails does not end a run: `Action.runCalls`, which is a run of anything
that takes calls, goes on from the state it leaves.
-/

namespace Chip8

namespace Action

variable {σ α β ι : Type}

theorem bind_pure_apply (x : Action σ α) (f : α → β) (s : σ) :
    (do return f (← x) : Action σ β) s = ((x s).1.map f, (x s).2) := by
  rw [bind_apply]
  rcases x s with ⟨_ | _, t⟩
  · rfl
  · rfl

theorem eq_error_of_map {x : Except Fault α × σ} {f : α → β} {s : σ} {e : Fault}
    (h : (x.1.map f, x.2) = (.error e, s)) : x = (.error e, s) := by
  rcases x with ⟨_ | _, t⟩
  · cases h
    rfl
  · cases h

theorem change_ok {f : σ → Except Fault σ} {s : σ} (h : (change f s).1 = .ok ()) :
    f s = .ok (change f s).2 := by
  unfold change at h ⊢
  split at h
  · rename_i t ht
    rw [ht]
  · cases h

/-- A refused change is not made. -/
theorem change_error {f : σ → Except Fault σ} {s t : σ} {e : Fault}
    (h : change f s = (.error e, t)) : t = s := by
  unfold change at h
  split at h
  · cases h
  · cases h
    rfl

/-! ## Runs -/

/-- The state after calls, each made where those before it lead, whether or not they succeeded. -/
def runCalls (act : ι → Action σ α) (s : σ) (calls : List ι) : σ :=
  calls.foldl (fun s call => (act call s).2) s

variable {act : ι → Action σ α}

theorem runCalls_nil (s : σ) : runCalls act s [] = s := rfl

theorem runCalls_cons (s : σ) (call : ι) (calls : List ι) :
    runCalls act s (call :: calls) = runCalls act (act call s).2 calls := rfl

theorem runCalls_append (s : σ) (earlier later : List ι) :
    runCalls act s (earlier ++ later) = runCalls act (runCalls act s earlier) later :=
  List.foldl_append

theorem runCalls_concat (s : σ) (calls : List ι) (call : ι) :
    runCalls act s (calls ++ [call]) = (act call (runCalls act s calls)).2 :=
  runCalls_append s calls [call]

/-- What each of the calls keeps is kept by their run. -/
theorem runCalls_keeps {P : σ → Prop} {calls : List ι}
    (hact : ∀ call ∈ calls, ∀ s, P s → P (act call s).2) {s : σ} (h : P s) :
    P (runCalls act s calls) :=
  List.foldlRecOn calls _ h fun s hs call hcall => hact call hcall s hs

/-- One of the calls, made where those before it lead, is of the kind `P`. -/
def Among (act : ι → Action σ α) (P : σ → ι → Prop) (s : σ) (calls : List ι) : Prop :=
  ∃ earlier call later, calls = earlier ++ call :: later ∧ P (runCalls act s earlier) call

theorem not_among_nil {P : σ → ι → Prop} {s : σ} : ¬Among act P s [] := by
  rintro ⟨earlier, call, later, h, -⟩
  exact List.append_ne_nil_of_right_ne_nil earlier (List.cons_ne_nil call later) h.symm

theorem among_cons {P : σ → ι → Prop} {s : σ} {call : ι} {calls : List ι} :
    Among act P s (call :: calls) ↔ P s call ∨ Among act P (act call s).2 calls := by
  constructor
  · rintro ⟨_ | ⟨first, earlier⟩, other, later, h, hP⟩
    · cases h
      exact .inl hP
    · cases h
      exact .inr ⟨earlier, other, later, rfl, hP⟩
  · rintro (h | ⟨earlier, other, later, rfl, h⟩)
    · exact ⟨[], call, calls, rfl, h⟩
    · exact ⟨call :: earlier, other, later, rfl, h⟩

end Action

open Chip8.Action (runCalls runCalls_keeps)

/-! ## Machines -/

namespace Machine

inductive Call where
  | load (program : Array UInt8)
  /-- An opcode may be executed in either mode. -/
  | execute (w : Opcode)
  | step
  | reset
  | takeRedraw
  | setDelay (b : UInt8)
  | setSound (b : UInt8)
  | tickDelay
  | tickSound
  | press (key : UInt8)
  | release (key : UInt8)
  | pollPress
  | clearPresses
  deriving DecidableEq, Repr

variable {ρ : Type} [ByteSource ρ]

omit [ByteSource ρ] in
/-- A change of the keypad that may be refused. -/
def changeKeypad (f : HexPad → Except Fault HexPad) : Action (Machine HexPad ρ) Unit :=
  .change fun m => (f m.keypad).map fun keypad => { m with keypad }

/-- What a call does, its reply left out. -/
def act : Call → Action (Machine HexPad ρ) Unit
  | .load program => .change (·.load program)
  | .execute w => Machine.execute w
  | .step => do let _ ← Machine.step
  | .reset => .modify Machine.reset
  | .takeRedraw => .modify (·.takeRedraw.2)
  | .setDelay b => .modify fun m => { m with delay := ⟨b⟩ }
  | .setSound b => .modify fun m => { m with sound := ⟨b⟩ }
  | .tickDelay => .modify fun m => { m with delay := m.delay.tick }
  | .tickSound => .modify fun m => { m with sound := m.sound.tick }
  | .press key => changeKeypad (·.press key)
  | .release key => changeKeypad (·.release key)
  | .pollPress => .modify fun m => { m with keypad := m.keypad.takePress.2 }
  | .clearPresses => .modify fun m => { m with keypad := m.keypad.forgetPress }

omit [ByteSource ρ] in
/-- Only the keypad changes. -/
theorem changeKeypad_frame (f : HexPad → Except Fault HexPad) (m : Machine HexPad ρ) :
    ∃ keypad, (changeKeypad f m).2 = { m with keypad } := by
  unfold changeKeypad
  cases h : f m.keypad with
  | ok keypad => exact ⟨keypad, by rw [Action.change_apply_ok (by rw [h]; rfl)]⟩
  | error e => exact ⟨m.keypad, by rw [Action.change_apply_error (by rw [h]; rfl)]⟩

theorem act_step (m : Machine HexPad ρ) :
    act .step m = ((step m).1.map fun _ => (), (step m).2) :=
  Action.bind_pure_apply step (fun _ => ()) m

end Machine

/-! ## Consoles -/

namespace Console

inductive Call where
  | load (rom : Array UInt8)
  | step
  | paceTimers
  | press (key : UInt8)
  | release (key : UInt8)
  | takeFrame
  | reset
  deriving DecidableEq, Repr

inductive Reply where
  | done
  | mode (mode : Mode)
  | frame (frame : Option Screen)
  deriving DecidableEq

variable {ρ : Type} [ByteSource ρ]

def act : Call → Action (Console ρ) Reply
  | .load rom => do
    Console.load rom
    return .done
  | .step => do return .mode (← stepMachine)
  | .paceTimers => do
    .modify Console.paceTimers
    return .done
  | .press key => do
    Console.press key
    return .done
  | .release key => do
    Console.release key
    return .done
  | .takeFrame => do return .frame (← .modifyGet Console.takeFrame)
  | .reset => do
    Console.reset
    return .done

variable (c : Console ρ)

/-! ### Outcomes -/

section
omit [ByteSource ρ]
variable {c}

theorem load_ok {rom : Array UInt8} {machine : Machine HexPad ρ}
    (h : c.machine.load rom = .ok machine) :
    Console.load rom c = (.ok (), { c with machine, rom }) :=
  Action.change_apply_ok (by rw [h]; rfl)

theorem load_error {rom : Array UInt8} {e : Fault} (h : c.machine.load rom = .error e) :
    Console.load rom c = (.error e, c) :=
  Action.change_apply_error (by rw [h]; rfl)

theorem load_ok_iff {rom : Array UInt8} {d : Console ρ} :
    Console.load rom c = (.ok (), d) ↔
      ∃ machine, c.machine.load rom = .ok machine ∧ d = { c with machine, rom } := by
  cases h : c.machine.load rom with
  | ok machine => simp [load_ok h, eq_comm]
  | error e => simp [load_error h]

theorem press_ok {key : UInt8} {keypad : HexPad} (h : c.machine.keypad.press key = .ok keypad) :
    Console.press key c = (.ok (), c.withKeypad keypad) :=
  Action.change_apply_ok (by rw [h]; rfl)

theorem press_error {key : UInt8} {e : Fault} (h : c.machine.keypad.press key = .error e) :
    Console.press key c = (.error e, c) :=
  Action.change_apply_error (by rw [h]; rfl)

theorem release_ok {key : UInt8} {keypad : HexPad}
    (h : c.machine.keypad.release key = .ok keypad) :
    Console.release key c = (.ok (), c.withKeypad keypad) :=
  Action.change_apply_ok (by rw [h]; rfl)

theorem release_error {key : UInt8} {e : Fault} (h : c.machine.keypad.release key = .error e) :
    Console.release key c = (.error e, c) :=
  Action.change_apply_error (by rw [h]; rfl)

theorem changeKeypad_state (f : HexPad → Except Fault HexPad) :
    (Action.change (fun c : Console ρ => (f c.machine.keypad).map c.withKeypad) c).2 =
      { c with machine := (Machine.changeKeypad f c.machine).2 } := by
  unfold Machine.changeKeypad
  cases h : f c.machine.keypad with
  | ok keypad =>
    rw [Action.change_apply_ok (by rw [h]; rfl), Action.change_apply_ok (by rw [h]; rfl)]
    rfl
  | error e =>
    rw [Action.change_apply_error (by rw [h]; rfl), Action.change_apply_error (by rw [h]; rfl)]

theorem press_state (key : UInt8) :
    (Console.press key c).2 =
      { c with machine := (Machine.changeKeypad (·.press key) c.machine).2 } :=
  changeKeypad_state (·.press key)

theorem release_state (key : UInt8) :
    (Console.release key c).2 =
      { c with machine := (Machine.changeKeypad (·.release key) c.machine).2 } :=
  changeKeypad_state (·.release key)

end

/-! ### Frames

What a call leaves alone, whatever comes of it. -/

section
omit [ByteSource ρ]

theorem paceTimers_frame : ∃ delay sound counter,
    c.paceTimers = { c with machine := { c.machine with delay, sound }, counter } := by
  unfold paceTimers
  split
  · exact ⟨_, _, _, rfl⟩
  · exact ⟨_, _, _, rfl⟩

theorem press_frame (key : UInt8) : ∃ keypad, (Console.press key c).2 = c.withKeypad keypad := by
  obtain ⟨keypad, h⟩ := Machine.changeKeypad_frame (·.press key) c.machine
  exact ⟨keypad, by rw [press_state, h]; rfl⟩

theorem release_frame (key : UInt8) :
    ∃ keypad, (Console.release key c).2 = c.withKeypad keypad := by
  obtain ⟨keypad, h⟩ := Machine.changeKeypad_frame (·.release key) c.machine
  exact ⟨keypad, by rw [release_state, h]; rfl⟩

end

/-! ### Replies and states -/

theorem act_load (rom : Array UInt8) :
    act (.load rom) c = ((Console.load rom c).1.map fun _ => Reply.done, (Console.load rom c).2) :=
  Action.bind_pure_apply _ _ c

theorem act_step :
    act .step c =
      ((Machine.step c.machine).1.map Reply.mode,
        { c with machine := (Machine.step c.machine).2 }) :=
  Action.bind_pure_apply stepMachine Reply.mode c

theorem act_press (key : UInt8) :
    act (.press key) c =
      ((Console.press key c).1.map fun _ => Reply.done, (Console.press key c).2) :=
  Action.bind_pure_apply _ _ c

theorem act_release (key : UInt8) :
    act (.release key) c =
      ((Console.release key c).1.map fun _ => Reply.done, (Console.release key c).2) :=
  Action.bind_pure_apply _ _ c

theorem act_paceTimers : act .paceTimers c = (.ok .done, c.paceTimers) := rfl

theorem act_takeFrame : act .takeFrame c = (.ok (.frame c.takeFrame.1), c.takeFrame.2) := rfl

theorem act_reset :
    act .reset c = ((Console.reset c).1.map fun _ => Reply.done, (Console.reset c).2) :=
  Action.bind_pure_apply _ _ c

/-! ### Calls on the machine -/

/-- What a call on the console asks of its machine. -/
def Call.onMachine (c : Console ρ) : Call → List Machine.Call
  | .load rom => [.load rom]
  | .step => [.step]
  | .paceTimers => if c.counter = 0 then [.tickDelay, .tickSound] else []
  | .press key => [.press key]
  | .release key => [.release key]
  | .takeFrame => [.takeRedraw]
  | .reset => [.reset, .load c.rom]

theorem act_machine (call : Call) :
    (act call c).2.machine = runCalls Machine.act c.machine (call.onMachine c) := by
  cases call with
  | load rom =>
    rw [act_load]
    show _ = (Action.change _ c.machine).2
    cases h : c.machine.load rom with
    | ok machine => rw [load_ok h, Action.change_apply_ok h]
    | error e => rw [load_error h, Action.change_apply_error h]
  | step =>
    rw [act_step]
    show _ = (Machine.act .step c.machine).2
    rw [Machine.act_step]
  | paceTimers =>
    rw [act_paceTimers]
    by_cases h : c.counter = 0
    · simp only [paceTimers, Call.onMachine, if_pos h]
      rfl
    · simp only [paceTimers, Call.onMachine, if_neg h]
      rfl
  | press key =>
    rw [act_press, press_state]
    rfl
  | release key =>
    rw [act_release, release_state]
    rfl
  | takeFrame => rfl
  | reset =>
    rw [act_reset]
    simp only [Console.reset, Action.bind_apply, Action.modify_apply]
    show _ = (Action.change _ c.machine.reset).2
    cases h : c.machine.reset.load c.rom with
    | ok machine => rw [Action.change_apply_ok (by rw [h]; rfl), Action.change_apply_ok h]
    | error e => rw [Action.change_apply_error (by rw [h]; rfl), Action.change_apply_error h]

/-- What every call on a machine keeps is kept by calls on a console. -/
theorem runCalls_machine_keeps {P : Machine HexPad ρ → Prop}
    (hact : ∀ call m, P m → P (Machine.act call m).2) {c : Console ρ} (h : P c.machine)
    (calls : List Call) : P (runCalls act c calls).machine := by
  refine runCalls_keeps (P := fun c : Console ρ => P c.machine) (fun call _ c hc => ?_) h
  rw [act_machine]
  exact runCalls_keeps (fun call _ => hact call) hc

end Console

end Chip8
