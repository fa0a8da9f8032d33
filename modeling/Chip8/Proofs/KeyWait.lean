import Chip8.Proofs.Programs

/-!
# Waiting for a key

A wait begins when an `awaitKey` is performed, which forgets earlier presses. `Waits` relates the
console at that moment to a later one and says which valid press came first since. Steps change
nothing while there is none; the first step behind it delivers it, whatever was pressed or released
in between, and ends the wait.
-/

namespace Chip8.Console

open Chip8.Action (runCalls runCalls_nil runCalls_cons runCalls_keeps)

variable {ρ : Type} [ByteSource ρ]

/-- What a driver calls from cycle to cycle: all but loading and resetting. -/
def Call.isCycleCall : Call → Bool
  | .load _ | .reset => false
  | _ => true

/-- The key that a call presses, if there is such a key. -/
def Call.validPress? : Call → Option UInt8
  | .press key => if key ≤ 0xF then some key else none
  | _ => none

/-- In `d` the wait for `Vx` that began in `c` goes on; `first` is the first valid press since. -/
structure Waits (c d : Console ρ) (x : UInt8) (first : Option UInt8) : Prop where
  mode : d.machine.mode = .awaitingKey x
  pending : d.machine.keypad.pending = first
  pc : d.machine.pc = c.machine.pc
  registers : d.machine.registers = c.machine.registers
  index : d.machine.index = c.machine.index
  stack : d.machine.stack = c.machine.stack
  memory : d.machine.memory = c.machine.memory
  screen : d.machine.screen = c.machine.screen

namespace Waits

variable {c d : Console ρ} {x : UInt8} {first : Option UInt8}

omit [ByteSource ρ] in
theorem withKeypad (h : Waits c d x first) (keypad : HexPad) :
    Waits c (d.withKeypad keypad) x keypad.pending :=
  { h with pending := rfl }

/-! ## One call -/

theorem start (h : c.machine.performed? = some (.awaitKey x)) :
    (Console.act .step c).1 = .ok (.mode (.awaitingKey x)) ∧
      Waits c (Console.act .step c).2 x none := by
  obtain ⟨-, -, hstep⟩ := Machine.step_of_performed h
  rw [act_step, hstep]
  refine ⟨rfl, ?_⟩
  constructor
  all_goals rfl

theorem step (h : Waits c d x none) (hx : x.toNat < registerCount) :
    Console.act .step d = (.ok (.mode (.awaitingKey x)), d) := by
  rw [act_step, Machine.step_unpressed h.mode hx h.pending]
  rfl

/-- Delivering a key ends the wait. -/
theorem step_pressed {key : UInt8} (h : Waits c d x (some key)) (hx : x.toNat < registerCount)
    (hkey : key ≤ 0xF) :
    Console.act .step d =
      (.ok (.mode .running), { d with
        machine := { d.machine with keypad := d.machine.keypad.forgetPress }.resumed x key }) := by
  rw [act_step, Machine.step_pressed h.mode hx h.pending (HexPad.le_iff_lt.mp hkey)]
  rfl

/-- A valid press is the first one, or comes too late. -/
theorem press (h : Waits c d x first) {key : UInt8} (hkey : key ≤ 0xF) :
    Waits c (Console.act (.press key) d).2 x (first <|> some key) := by
  have hp : ∃ keypad, d.machine.keypad.press key = .ok keypad :=
    ⟨_, dif_pos (HexPad.le_iff_lt.mp hkey)⟩
  obtain ⟨keypad, hp⟩ := hp
  have hw := h.withKeypad keypad
  rw [HexPad.pending_press hp, h.pending] at hw
  rw [act_press, press_ok hp]
  exact hw

/-- A call goes on waiting unless it is the first valid press, or a step behind it. -/
theorem act (h : Waits c d x first) (hx : x.toNat < registerCount) {call : Call}
    (hcall : call.isCycleCall) (hnone : first = none → call.validPress? = none)
    (hsome : first ≠ none → call ≠ .step) : Waits c (Console.act call d).2 x first := by
  cases call with
  | load | reset => cases hcall
  | step =>
    cases first with
    | none =>
      rw [h.step hx]
      exact h
    | some key => exact absurd rfl (hsome (Option.some_ne_none key))
  | paceTimers =>
    obtain ⟨delay, sound, counter, hd⟩ := paceTimers_frame d
    rw [act_paceTimers, hd]
    exact { h with }
  | press key =>
    by_cases hkey : key ≤ 0xF
    · have hw := h.press hkey
      cases first with
      | some _ => exact hw
      | none =>
        have hpress := hnone rfl
        rw [Call.validPress?, if_pos hkey] at hpress
        cases hpress
    · rw [act_press, press_error (dif_neg fun hlt => hkey (HexPad.le_iff_lt.mpr hlt))]
      exact h
  | release key =>
    rw [act_release]
    cases hp : d.machine.keypad.release key with
    | error e =>
      rw [release_error hp]
      exact h
    | ok keypad =>
      rw [release_ok hp]
      have hw := h.withKeypad keypad
      rw [HexPad.pending_release hp, h.pending] at hw
      exact hw
  | takeFrame => exact { h with }

/-! ## Many calls -/

theorem runCalls (h : Waits c d x first) (hx : x.toNat < registerCount) {calls : List Call}
    (hcalls : ∀ call ∈ calls, call.isCycleCall)
    (hnone : first = none → ∀ call ∈ calls, call.validPress? = none)
    (hsome : first ≠ none → ∀ call ∈ calls, call ≠ .step) :
    Waits c (Action.runCalls Console.act d calls) x first := by
  refine runCalls_keeps (P := fun d => Waits c d x first) (fun call hcall d hd => ?_) h
  exact hd.act hx (hcalls call hcall) (fun e => hnone e call hcall) (fun e => hsome e call hcall)

end Waits

/-! ## Where waits come from -/

variable {c : Console ρ} {x : UInt8}

/-- A machine waits after a call if it waited before, or if the call was a step that performed an
`awaitKey`. -/
theorem awaiting_of_act {call : Call} (hcall : call.isCycleCall)
    (h : (act call c).2.machine.mode = .awaitingKey x) :
    c.machine.mode = .awaitingKey x ∨
      call = .step ∧ c.machine.performed? = some (.awaitKey x) := by
  cases call with
  | load | reset => cases hcall
  | step =>
    rw [act_step] at h
    exact (Machine.awaiting_of_step h).imp_right fun hp => ⟨rfl, hp⟩
  | paceTimers =>
    left
    obtain ⟨delay, sound, counter, hc⟩ := paceTimers_frame c
    rw [act_paceTimers, hc] at h
    exact h
  | press key =>
    left
    obtain ⟨keypad, hk⟩ := press_frame c key
    rw [act_press, hk] at h
    exact h
  | release key =>
    left
    obtain ⟨keypad, hk⟩ := release_frame c key
    rw [act_release, hk] at h
    exact h
  | takeFrame => exact .inl h

theorem awaiting_of_runCalls {calls : List Call} (hcalls : ∀ call ∈ calls, call.isCycleCall)
    (h : (runCalls act c calls).machine.mode = .awaitingKey x) :
    c.machine.mode = .awaitingKey x ∨ ∃ before after, calls = before ++ .step :: after ∧
      (runCalls act c before).machine.performed? = some (.awaitKey x) := by
  induction calls generalizing c with
  | nil => exact .inl h
  | cons call calls ih =>
    have hcall := hcalls call (.head _)
    rcases ih (fun later hl => hcalls later (.tail _ hl)) h with hmode | hsplit
    · rcases awaiting_of_act hcall hmode with hmode | ⟨rfl, hp⟩
      · exact .inl hmode
      · exact .inr ⟨[], calls, rfl, hp⟩
    · obtain ⟨before, after, rfl, hp⟩ := hsplit
      exact .inr ⟨call :: before, after, rfl, hp⟩

/-! ## The whole wait -/

/-- From a step that performs `awaitKey x`: steps wait until there is a valid press, the first step
behind the first valid press delivers it and passes the instruction, and a machine that waits again
later performed another `awaitKey` in between. -/
theorem first_press_ends_wait (c : Console ρ) (x : UInt8)
    (h : c.machine.performed? = some (.awaitKey x)) :
    (act .step c).1 = .ok (.mode (.awaitingKey x)) ∧
    ∀ waited : List Call, (∀ call ∈ waited, call.isCycleCall) →
      (∀ call ∈ waited, call.validPress? = none) →
      let waiting := runCalls act (act .step c).2 waited
      act .step waiting = (.ok (.mode (.awaitingKey x)), waiting) ∧
      ∀ (key : UInt8) (late : List Call), key ≤ 0xF → (∀ call ∈ late, call.isCycleCall) →
        (∀ call ∈ late, call ≠ .step) →
        let pressed := runCalls act waiting (.press key :: late)
        let resumed := (act .step pressed).2
        (act .step pressed).1 = .ok (.mode .running) ∧
        resumed = { pressed with machine := { pressed.machine with
          registers := resumed.machine.registers
          pc := c.machine.pc + 2
          mode := .running
          keypad := { pressed.machine.keypad with pending := none } } } ∧
        (∀ y, resumed.machine.registers.get y =
          if y = x then .ok key else c.machine.registers.get y) ∧
        resumed.machine.index = c.machine.index ∧ resumed.machine.stack = c.machine.stack ∧
        resumed.machine.memory = c.machine.memory ∧ resumed.machine.screen = c.machine.screen ∧
        ∀ later : List Call, (∀ call ∈ later, call.isCycleCall) →
          ∀ y, (runCalls act resumed later).machine.mode = .awaitingKey y →
            ∃ before after, later = before ++ .step :: after ∧
              (runCalls act resumed before).machine.performed? = some (.awaitKey y) := by
  have hx : x.toNat < registerCount :=
    (Machine.step_of_performed h).1 (.register x) (by simp [Instruction.operands])
  obtain ⟨hreply, hstart⟩ := Waits.start h
  refine ⟨hreply, ?_⟩
  intro waited hwaited hnone waiting
  have hwaiting : Waits c waiting x none :=
    hstart.runCalls hx hwaited (fun _ => hnone) (fun e => absurd rfl e)
  refine ⟨hwaiting.step hx, ?_⟩
  intro key late hkey hlate hsteps pressed resumed
  have hpressed : Waits c pressed x (some key) :=
    (hwaiting.press hkey).runCalls hx hlate (fun e => absurd e (Option.some_ne_none key))
      (fun _ => hsteps)
  have hstep := hpressed.step_pressed hx hkey
  have hresumed : resumed = { pressed with
      machine := { pressed.machine with keypad := pressed.machine.keypad.forgetPress }.resumed
        x key } :=
    congrArg Prod.snd hstep
  have hmode : resumed.machine.mode = .running := by rw [hresumed]; rfl
  refine ⟨congrArg Prod.fst hstep, ?_, ?_, ?_, ?_, ?_, ?_, ?_⟩
  · rw [hresumed, ← hpressed.pc]
    rfl
  · intro y
    rw [hresumed, ← hpressed.registers]
    exact Registers.get_set (Registers.set_eq key hx) y
  · rw [hresumed]
    exact hpressed.index
  · rw [hresumed]
    exact hpressed.stack
  · rw [hresumed]
    exact hpressed.memory
  · rw [hresumed]
    exact hpressed.screen
  · intro later hlater y hy
    rcases awaiting_of_runCalls hlater hy with hwait | hsplit
    · cases hmode.symm.trans hwait
    · exact hsplit

/-- `F30A` with key 5 pressed too early, no key `10`, and key 2 pressed too late; then `F40A`. -/
theorem first_press_ends_wait_for_seven :
    let c := runCalls act (fresh (WordCycle.ofList []))
      [.load #[0xF3, 0x0A, 0xF4, 0x0A], .press 5]
    let waiting := runCalls act (act .step c).2 [.step, .press 0x10, .release 5]
    let pressed := runCalls act waiting [.press 7, .press 2, .release 7, .paceTimers]
    c.machine.performed? = some (.awaitKey 3) ∧
    (act .step c).1 = .ok (.mode (.awaitingKey 3)) ∧
    act .step waiting = (.ok (.mode (.awaitingKey 3)), waiting) ∧
    (act .step pressed).1 = .ok (.mode .running) ∧
    (act .step pressed).2.machine.registers.get 3 = .ok 7 ∧
    (runCalls act (act .step pressed).2 [.step]).machine.mode = .awaitingKey 4 ∧
    ∃ before after, [.step] = before ++ .step :: after ∧
      (runCalls act (act .step pressed).2 before).machine.performed? = some (.awaitKey 4) := by
  intro c
  have hat : c.machine.At #[0xF3, 0x0A, 0xF4, 0x0A] 0 := ⟨rfl, rfl, Memory.fresh, rfl⟩
  have h : c.machine.performed? = some (.awaitKey 3) := hat.performed (by decide) rfl rfl
  -- No more of the console is needed, and the kernel should not compute it.
  clear_value c
  intro waiting pressed
  obtain ⟨hstart, hwait⟩ := first_press_ends_wait c 3 h
  obtain ⟨hwaiting, hpress⟩ := hwait [.step, .press 0x10, .release 5] (by decide) (by decide)
  obtain ⟨hrunning, hresumed, hregisters, -, -, hmemory, -, hagain⟩ :=
    hpress 7 [.press 2, .release 7, .paceTimers] (by decide) (by decide) (by decide)
  have hmode : (act .step pressed).2.machine.mode = .running :=
    congrArg (·.machine.mode) hresumed
  have hpc : (act .step pressed).2.machine.pc = c.machine.pc + 2 :=
    congrArg (·.machine.pc) hresumed
  have hnext : (act .step pressed).2.machine.At #[0xF3, 0x0A, 0xF4, 0x0A] 2 :=
    hat.next (by decide) hmode hpc hmemory
  have hperformed : (act .step pressed).2.machine.performed? = some (.awaitKey 4) :=
    hnext.performed (by decide) rfl rfl
  have hsecond : (runCalls act (act .step pressed).2 [.step]).machine.mode = .awaitingKey 4 := by
    rw [runCalls_cons, runCalls_nil]
    exact (Waits.start hperformed).2.mode
  exact ⟨h, hstart, hwaiting, hrunning, hregisters 3, hsecond,
    hagain [.step] (by decide) 4 hsecond⟩

end Chip8.Console
