import Chip8.Proofs.Atomicity
import Chip8.Proofs.KeyWait

/-!
# Faults persist

A step that faults leaves the machine as it was, and whether a running machine faults depends on
the counter, memory, the registers, the index and the call stack only. Between steps a driver
changes none of these, unless it loads a program, resets the machine or executes an opcode of its
own: what is left to it are the timers, the redraw flag and the keypad (`Idled`). The next step
therefore faults alike, and so does every step behind it.
-/

namespace Chip8

open Chip8.Action (runCalls runCalls_keeps)

/-! ## What a driver changes between steps -/

namespace Machine

variable {κ ρ : Type}

/-- `t` is `m` with other timers, another redraw flag and another keypad. -/
def Idled (m t : Machine κ ρ) : Prop :=
  ∃ delay sound redraw keypad, t = { m with delay, sound, redraw, keypad }

/-- A step of a running machine faults and leaves it as it is. -/
structure Stuck [Keypad κ] [ByteSource ρ] (m : Machine κ ρ) (e : Fault) : Prop where
  mode : m.mode = .running
  step : Machine.step m = (.error e, m)

/-- What a driver calls from cycle to cycle: no loading, no resetting, no opcode of its own. -/
def Call.isCycleCall : Call → Bool
  | .load _ | .execute _ | .reset => false
  | _ => true

namespace Idled

variable {m t : Machine κ ρ}

theorem refl (m : Machine κ ρ) : m.Idled m := ⟨m.delay, m.sound, m.redraw, m.keypad, rfl⟩

theorem trans {u : Machine κ ρ} (h : m.Idled t) (h' : t.Idled u) : m.Idled u := by
  obtain ⟨_, _, _, _, rfl⟩ := h
  obtain ⟨_, _, _, _, rfl⟩ := h'
  exact ⟨_, _, _, _, rfl⟩

theorem fault?_eq (h : m.Idled t) (i : Instruction) : t.fault? i = m.fault? i := by
  obtain ⟨delay, sound, redraw, keypad, rfl⟩ := h
  cases i with
  | _ => rfl

variable [Keypad κ] [ByteSource ρ] {e : Fault}

/-- An opcode is refused for the same reason. -/
theorem execute_error (h : m.Idled t) {w : Opcode} (he : execute w m = (.error e, m)) :
    execute w t = (.error e, t) := by
  refine execute_error_iff.mpr ⟨rfl, ?_⟩
  obtain ⟨-, hunknown | ⟨i, hd, hf⟩⟩ := execute_error_iff.mp he
  · exact .inl hunknown
  · exact .inr ⟨i, hd, (h.fault?_eq i).trans hf⟩

theorem stuck (h : m.Idled t) (hm : m.Stuck e) : t.Stuck e := by
  have hmode : t.mode = .running := by
    obtain ⟨delay, sound, redraw, keypad, rfl⟩ := h
    exact hm.mode
  have hfetch : t.fetch = m.fetch := by
    obtain ⟨delay, sound, redraw, keypad, rfl⟩ := h
    rfl
  have hs := hm.step
  refine ⟨hmode, ?_⟩
  rw [step_running hm.mode] at hs
  rw [step_running hmode, hfetch]
  cases hw : m.fetch with
  | error e =>
    rw [hw] at hs
    cases hs
    rfl
  | ok w =>
    rw [hw] at hs
    have he := h.execute_error (Action.eq_error_of_map (x := execute w m) hs)
    simp only [he]
    rfl

end Idled

/-! ## Calls on machines with the hexadecimal keypad -/

section
variable {ρ : Type} [ByteSource ρ] {m t : Machine HexPad ρ} {e : Fault}

/-- With the hexadecimal keypad a machine that waits for a key does not fault. -/
theorem Intact.stuck (h : m.Intact) (hs : Machine.step m = (.error e, t)) :
    t = m ∧ m.Stuck e := by
  obtain rfl := h.eq_of_step_error hs
  cases hm : t.mode with
  | running => exact ⟨rfl, hm, hs⟩
  | awaitingKey x =>
    obtain ⟨mode, hok⟩ := h.step_awaiting_ok hm
    rw [hs] at hok
    cases hok

/-- A stuck machine stays as it is, whatever a driver calls from cycle to cycle. -/
theorem Stuck.act (h : m.Stuck e) {call : Call} (hcall : call.isCycleCall) :
    m.Idled (Machine.act call m).2 := by
  cases call with
  | load | execute | reset => cases hcall
  | step =>
    rw [act_step, h.step]
    exact .refl m
  | press key =>
    obtain ⟨keypad, hk⟩ := changeKeypad_frame (·.press key) m
    exact ⟨m.delay, m.sound, m.redraw, keypad, hk⟩
  | release key =>
    obtain ⟨keypad, hk⟩ := changeKeypad_frame (·.release key) m
    exact ⟨m.delay, m.sound, m.redraw, keypad, hk⟩
  | takeRedraw | setDelay | setSound | tickDelay | tickSound | pollPress | clearPresses =>
    exact ⟨_, _, _, _, rfl⟩

theorem Stuck.runCalls (h : m.Stuck e) {calls : List Call}
    (hcalls : ∀ call ∈ calls, call.isCycleCall) :
    m.Idled (Action.runCalls Machine.act m calls) :=
  runCalls_keeps (fun call hcall _ ht => ht.trans ((ht.stuck h).act (hcalls call hcall))) (.refl m)

end

end Machine

/-! ## Calls on consoles -/

namespace Console

variable {ρ : Type} [ByteSource ρ] {c : Console ρ} {calls : List Call}

omit [ByteSource ρ] in
theorem Call.onMachine_isCycleCall {call : Call} (h : call.isCycleCall) :
    ∀ asked ∈ call.onMachine c, asked.isCycleCall := by
  cases call with
  | load | reset => cases h
  | paceTimers =>
    show ∀ asked ∈ if c.counter = 0 then [.tickDelay, .tickSound] else [],
      Machine.Call.isCycleCall asked
    split
    · decide
    · exact fun _ hmem => nomatch hmem
  | step | press | release | takeFrame =>
    intro asked hasked
    cases List.mem_singleton.mp hasked
    rfl

theorem rom_of_cycleCalls (h : ∀ call ∈ calls, call.isCycleCall) :
    (runCalls act c calls).rom = c.rom := by
  have hnone : calls.filterMap Call.rom? = [] := by
    refine List.filterMap_eq_nil_iff.mpr fun call hmem => ?_
    cases call with
    | load => cases h _ hmem
    | _ => rfl
  rw [runCalls_rom, hnone]
  rfl

/-- While the machine is stuck, only the counter that paces the timers is changed besides. -/
theorem runCalls_of_stuck {e : Fault} (hm : c.machine.Stuck e)
    (h : ∀ call ∈ calls, call.isCycleCall) :
    c.machine.Idled (runCalls act c calls).machine ∧ ∃ counter,
      runCalls act c calls = { c with machine := (runCalls act c calls).machine, counter } := by
  refine ⟨?_, (runCalls act c calls).counter, ?_⟩
  · refine runCalls_keeps (P := fun d : Console ρ => c.machine.Idled d.machine)
      (fun call hcall d hd => ?_) (.refl c.machine)
    rw [act_machine]
    exact hd.trans ((hd.stuck hm).runCalls (Call.onMachine_isCycleCall (h call hcall)))
  · rw [← rom_of_cycleCalls (c := c) h]

theorem stuck_of_act_step {d : Console ρ} {e : Fault} (hc : c.machine.Intact)
    (h : act .step c = (.error e, d)) : d = c ∧ c.machine.Stuck e := by
  rw [act_step] at h
  rcases hs : Machine.step c.machine with ⟨_ | mode, machine⟩
  · rw [hs] at h
    cases h
    obtain ⟨hmachine, hstuck⟩ := hc.stuck hs
    exact ⟨by rw [hmachine], hstuck⟩
  · rw [hs] at h
    cases h

theorem act_step_of_stuck {e : Fault} (hm : c.machine.Stuck e) :
    act .step c = (.error e, c) := by
  rw [act_step, hm.step]
  rfl

end Console

/-! ## All faults -/

/-- If a step faults, on a machine or a console that was reached by calls, it changes nothing, and
until a driver loads, resets or executes an opcode of its own, every step faults alike and
everything stays as it is but the timers, the redraw flag, the keypad and the counter that paces
the timers. -/
theorem fault_persists_until_load_or_reset {ρ : Type} [ByteSource ρ] (source : ρ) :
    (∀ (history : List Machine.Call) (e : Fault) (t : Machine HexPad ρ),
      let m := runCalls Machine.act (Machine.fresh .idle source) history
      Machine.step m = (.error e, t) → t = m ∧
        ∀ calls : List Machine.Call, (∀ call ∈ calls, call.isCycleCall) →
          (∀ before after, calls = before ++ .step :: after →
            (Machine.step (runCalls Machine.act t before)).1 = .error e) ∧
          ∃ delay sound redraw keypad,
            runCalls Machine.act t calls = { t with delay, sound, redraw, keypad }) ∧
    ∀ (history : List Console.Call) (e : Fault) (d : Console ρ),
      let c := runCalls Console.act (Console.fresh source) history
      Console.act .step c = (.error e, d) → d = c ∧
        ∀ calls : List Console.Call, (∀ call ∈ calls, call.isCycleCall) →
          (∀ before after, calls = before ++ .step :: after →
            (Console.act .step (runCalls Console.act d before)).1 = .error e) ∧
          ∃ delay sound redraw keypad counter, runCalls Console.act d calls =
            { d with machine := { d.machine with delay, sound, redraw, keypad }, counter } := by
  constructor
  · intro history e t m hs
    have hm : m.Intact := Machine.intact_of_calls source history
    obtain ⟨rfl, hstuck⟩ := hm.stuck hs
    refine ⟨rfl, fun calls hcalls => ⟨?_, hstuck.runCalls hcalls⟩⟩
    rintro before after rfl
    have hbefore := hstuck.runCalls fun call hmem =>
      hcalls call (List.mem_append_left _ hmem)
    exact congrArg Prod.fst (hbefore.stuck hstuck).step
  · intro history e d c hs
    have hc : c.machine.Intact := Machine.intact_of_console source history
    obtain ⟨rfl, hstuck⟩ := Console.stuck_of_act_step hc hs
    refine ⟨rfl, fun calls hcalls => ⟨?_, ?_⟩⟩
    · rintro before after rfl
      obtain ⟨hbefore, -⟩ := Console.runCalls_of_stuck hstuck fun call hmem =>
        hcalls call (List.mem_append_left _ hmem)
      rw [Console.act_step_of_stuck (hbefore.stuck hstuck)]
    · obtain ⟨⟨delay, sound, redraw, keypad, hmachine⟩, counter, hrun⟩ :=
        Console.runCalls_of_stuck hstuck hcalls
      exact ⟨delay, sound, redraw, keypad, counter, by rw [hrun, hmachine]⟩

/-- `00EE` at 0x200 finds no frame, also behind a press, a timer and a step. -/
theorem fault_persists_until_load_or_reset_underflow :
    let m := runCalls Machine.act (Machine.fresh .idle (WordCycle.ofList [])) [.load #[0x00, 0xEE]]
    let c := runCalls Console.act (Console.fresh (WordCycle.ofList [])) [.load #[0x00, 0xEE]]
    Machine.step m = (.error (.stackUnderflow 0x200), m) ∧
    (Machine.step (runCalls Machine.act m [.press 5, .setDelay 9])).1 =
      .error (.stackUnderflow 0x200) ∧
    (∃ delay sound redraw keypad, runCalls Machine.act m [.press 5, .setDelay 9, .step] =
      { m with delay, sound, redraw, keypad }) ∧
    Console.act .step c = (.error (.stackUnderflow 0x200), c) ∧
    (Console.act .step (runCalls Console.act c [.step, .press 7, .paceTimers])).1 =
      .error (.stackUnderflow 0x200) := by
  intro m c
  have hat : m.At #[0x00, 0xEE] 0 := ⟨rfl, rfl, Memory.fresh, rfl⟩
  have hstep : Machine.step m = (.error (.stackUnderflow 0x200), m) :=
    hat.step_faulted (by decide) (i := .ret) rfl rfl
  have hmachine : c.machine = m := rfl
  obtain ⟨machines, consoles⟩ := fault_persists_until_load_or_reset (WordCycle.ofList [])
  have hmachines := machines [.load #[0x00, 0xEE]] (.stackUnderflow 0x200) m
  have hconsoles := consoles [.load #[0x00, 0xEE]] (.stackUnderflow 0x200) c
  change Machine.step m = _ → _ at hmachines
  change Console.act .step c = _ → _ at hconsoles
  -- The kernel should not compute the runs.
  clear_value m c
  have hact : Console.act .step c = (.error (.stackUnderflow 0x200), c) := by
    rw [Console.act_step, hmachine, hstep, ← hmachine]
    rfl
  obtain ⟨-, hlater⟩ := hmachines hstep
  obtain ⟨hagain, hkept⟩ := hlater [.press 5, .setDelay 9, .step] (by decide)
  obtain ⟨-, hlater⟩ := hconsoles hact
  obtain ⟨hreplies, -⟩ := hlater [.step, .press 7, .paceTimers, .step] (by decide)
  exact ⟨hstep, hagain [.press 5, .setDelay 9] [] rfl, hkept, hact,
    hreplies [.step, .press 7, .paceTimers] [] rfl⟩

end Chip8
