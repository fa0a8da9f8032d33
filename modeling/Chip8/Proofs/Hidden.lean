import Chip8.Proofs.Calls
import Chip8.Proofs.Nesting

/-!
# Hidden state

What no program can observe: the sound timer, whether a frame is due, the slots behind the frames,
and a press that is pending while no key is awaited. Consoles that agree on all else answer every
call but `takeFrame` alike, and go on agreeing. An `awaitKey` forgets the pending press and thereby
makes it equal; a call writes the slot that it makes a frame.
-/

namespace Chip8

open Chip8.Action (runCalls runCalls_nil runCalls_cons)

namespace Action

variable {σ α β : Type} {R : σ → σ → Prop}

/-- Related states are taken to related states, with the same outcome. -/
def Respects (R : σ → σ → Prop) (x : Action σ α) : Prop :=
  ∀ ⦃s t⦄, R s t → (x t).1 = (x s).1 ∧ R (x s).2 (x t).2

namespace Respects

theorem pure (a : α) : Respects R (pure a) := fun _ _ h => ⟨rfl, h⟩

theorem bind {x : Action σ α} {f : α → Action σ β} (hx : Respects R x)
    (hf : ∀ a, Respects R (f a)) : Respects R (x >>= f) := by
  intro s t h
  obtain ⟨hr, ht⟩ := hx h
  rw [bind_apply, bind_apply]
  revert hr ht
  rcases x s with ⟨_ | a, s'⟩
  · rcases x t with ⟨_ | b, t'⟩
    · intro hr ht
      cases hr
      exact ⟨rfl, ht⟩
    · exact fun hr => nomatch hr
  · rcases x t with ⟨_ | b, t'⟩
    · exact fun hr => nomatch hr
    · intro hr ht
      cases hr
      exact hf a ht

theorem modify {f : σ → σ} (hf : ∀ ⦃s t⦄, R s t → R (f s) (f t)) :
    Respects R (Action.modify f) := fun _ _ h => ⟨rfl, hf h⟩

/-- A change that is refused for one reason, or made to both. -/
theorem change {f : σ → Except Fault σ}
    (hf : ∀ ⦃s t⦄, R s t → (∃ e, f s = .error e ∧ f t = .error e) ∨
      ∃ s' t', f s = .ok s' ∧ f t = .ok t' ∧ R s' t') : Respects R (Action.change f) := by
  intro s t h
  rcases hf h with ⟨e, hs, ht⟩ | ⟨s', t', hs, ht, h'⟩
  · rw [change_apply_error hs, change_apply_error ht]
    exact ⟨rfl, h⟩
  · rw [change_apply_ok hs, change_apply_ok ht]
    exact ⟨rfl, h'⟩

end Respects

end Action

/-! ## Call stacks and keypads -/

/-- The same frames, whatever the slots behind them hold. -/
structure CallStack.Agrees (s t : CallStack) : Prop where
  depth : t.depth = s.depth
  frames : t.frames = s.frames

namespace CallStack.Agrees

variable {s t : CallStack}

theorem pushed (h : s.Agrees t) (hd : s.depth < stackDepth) (a : UInt16) :
    (s.pushed a).Agrees (t.pushed a) where
  depth := congrArg (· + 1) h.depth
  frames := by
    have hd' : t.depth < stackDepth := h.depth ▸ hd
    rw [frames_pushed hd, frames_pushed hd', h.frames]

theorem popped (h : s.Agrees t) (h1 : 0 < s.depth) (h2 : s.depth ≤ stackDepth) :
    t.top = s.top ∧ s.popped.Agrees t.popped := by
  have hs := frames_popped h1 h2
  have ht := frames_popped (s := t) (h.depth ▸ h1) (h.depth ▸ h2)
  obtain ⟨hrest, hlast⟩ := List.append_inj' (ht.symm.trans (h.frames.trans hs)) rfl
  exact ⟨List.singleton_inj.mp hlast, congrArg (· - 1) h.depth, hrest⟩

end CallStack.Agrees

/-! ## Machines -/

namespace Machine

variable {ρ : Type}

/-- All that a program can observe is the same. -/
structure Agrees (m t : Machine HexPad ρ) : Prop where
  registers : t.registers = m.registers
  index : t.index = m.index
  pc : t.pc = m.pc
  stack : m.stack.Agrees t.stack
  delay : t.delay = m.delay
  memory : t.memory = m.memory
  screen : t.screen = m.screen
  mode : t.mode = m.mode
  held : t.keypad.held = m.keypad.held
  pending : m.mode ≠ .running → t.keypad.pending = m.keypad.pending
  source : t.source = m.source

namespace Agrees

variable {m t : Machine HexPad ρ} {i : Instruction}

theorem refl (m : Machine HexPad ρ) : m.Agrees m :=
  ⟨rfl, rfl, rfl, ⟨rfl, rfl⟩, rfl, rfl, rfl, rfl, rfl, fun _ => rfl, rfl⟩

theorem keypad_eq (h : m.Agrees t) (hm : m.mode ≠ .running) : t.keypad = m.keypad := by
  have hp := h.pending hm
  have hh := h.held
  revert hp hh
  cases t.keypad
  cases m.keypad
  rintro rfl rfl
  rfl

theorem eq_with (h : m.Agrees t) : ∃ sound redraw stack keypad,
    t = { m with sound, redraw, stack, keypad } := by
  refine ⟨t.sound, t.redraw, t.stack, t.keypad, ?_⟩
  rw [← h.registers, ← h.index, ← h.pc, ← h.delay, ← h.memory, ← h.screen, ← h.mode, ← h.source]

theorem isHeld (h : m.Agrees t) (key : UInt8) : t.keypad.isHeld key = m.keypad.isHeld key := by
  rw [HexPad.isHeld, HexPad.isHeld, h.held]

theorem fetch (h : m.Agrees t) : t.fetch = m.fetch := by
  rw [Machine.fetch, Machine.fetch, h.memory, h.pc]

theorem withKeypad (h : m.Agrees t) {p q : HexPad} (hheld : q.held = p.held)
    (hpending : m.mode ≠ .running → q.pending = p.pending) :
    Agrees { m with keypad := p } { t with keypad := q } :=
  { h with held := hheld, pending := hpending }

theorem load (h : m.Agrees t) (program : Array UInt8) :
    (∃ e, m.load program = .error e ∧ t.load program = .error e) ∨
      ∃ m' t', m.load program = .ok m' ∧ t.load program = .ok t' ∧ m'.Agrees t' := by
  unfold Machine.load
  rw [h.memory]
  cases m.memory.load program with
  | error e => exact .inl ⟨e, rfl, rfl⟩
  | ok memory => exact .inr ⟨_, _, rfl, rfl, { h with memory := rfl }⟩

theorem reset (h : m.Agrees t) : m.reset.Agrees t.reset where
  registers := rfl
  index := rfl
  pc := rfl
  stack := ⟨rfl, rfl⟩
  delay := rfl
  memory := rfl
  screen := rfl
  mode := rfl
  held := h.held
  pending hne := absurd rfl hne
  source := h.source

theorem tickTimers (h : m.Agrees t) : m.tickTimers.Agrees t.tickTimers :=
  { h with delay := congrArg Countdown.tick h.delay }

/-! ### Instructions -/

theorem fault?_eq (h : m.Agrees t) (i : Instruction) : t.fault? i = m.fault? i := by
  cases i with
  | ret | call => rw [fault?, fault?, h.stack.depth, h.pc]
  | _ =>
    obtain ⟨sound, redraw, stack, keypad, rfl⟩ := h.eq_with
    rfl

theorem stackAfter (h : m.Agrees t) (hf : m.fault? i = none) :
    (m.stackAfter i).Agrees (t.stackAfter i) := by
  cases i with
  | ret =>
    obtain ⟨h1, h2⟩ := depth_of_fault?_ret hf
    exact (h.stack.popped h1 h2).2
  | call a =>
    show (m.stack.pushed m.pc).Agrees (t.stack.pushed t.pc)
    rw [h.pc]
    exact h.stack.pushed (depth_of_fault?_call hf) m.pc
  | _ => exact h.stack

theorem flow_eq (h : m.Agrees t) (hf : m.fault? i = none) : t.flow i = m.flow i := by
  have hstack := h.stack
  have hheld := h.isHeld
  obtain ⟨sound, redraw, stack, keypad, rfl⟩ := h.eq_with
  cases i with
  | ret =>
    obtain ⟨h1, h2⟩ := depth_of_fault?_ret hf
    exact congrArg (fun a => Flow.jump (a + 2)) (hstack.popped h1 h2).1
  | skipKeyDown x => exact congrArg Flow.skipIf (hheld (m.v x))
  | skipKeyUp x => exact congrArg (fun down => Flow.skipIf !down) (hheld (m.v x))
  | _ => rfl

/-- Asking for a key leaves the keypad, and a wait begins with no press pending. -/
theorem keypadAfter (h : m.Agrees t) (hm : m.mode = .running) :
    (t.keypadAfter i).held = (m.keypadAfter i).held ∧
      (m.modeAfter i ≠ .running → (t.keypadAfter i).pending = (m.keypadAfter i).pending) := by
  cases i with
  | awaitKey x => exact ⟨h.held, fun _ => rfl⟩
  | _ => exact ⟨h.held, fun hne => absurd hm hne⟩

variable [ByteSource ρ]

theorem executed (h : m.Agrees t) (hm : m.mode = .running) (hf : m.fault? i = none) :
    (m.executed i).Agrees (t.executed i) := by
  have hpc : (t.flow i).target t.pc = (m.flow i).target m.pc := by rw [h.flow_eq hf, h.pc]
  have hstack := h.stackAfter hf
  obtain ⟨hheld, hpending⟩ := h.keypadAfter (i := i) hm
  -- The other components depend on nothing that may differ.
  obtain ⟨sound, redraw, stack, keypad, rfl⟩ := h.eq_with
  exact {
    registers := by cases i <;> rfl
    index := by cases i <;> rfl
    pc := hpc
    stack := hstack
    delay := by cases i <;> rfl
    memory := by cases i <;> rfl
    screen := by cases i <;> rfl
    mode := by cases i <;> rfl
    held := hheld
    pending := hpending
    source := by cases i <;> rfl }

theorem execute (h : m.Agrees t) (hm : m.mode = .running) (w : Opcode) :
    (Machine.execute w t).1 = (Machine.execute w m).1 ∧
      (Machine.execute w m).2.Agrees (Machine.execute w t).2 := by
  rw [execute_eq, execute_eq]
  cases Instruction.decode? w with
  | none => exact ⟨rfl, h⟩
  | some i =>
    simp only [h.fault?_eq i]
    cases hf : m.fault? i with
    | some e => exact ⟨rfl, h⟩
    | none => exact ⟨rfl, h.executed hm hf⟩

/-! ### Steps -/

omit [ByteSource ρ] in
theorem setRegister (x b : UInt8) :
    Action.Respects Agrees (Machine.setRegister x b : Action (Machine HexPad ρ) Unit) := by
  refine Action.Respects.change fun m t h => ?_
  rw [h.registers]
  cases m.registers.set x b with
  | error e => exact .inl ⟨e, rfl, rfl⟩
  | ok registers => exact .inr ⟨_, _, rfl, rfl, { h with registers := rfl }⟩

omit [ByteSource ρ] in
theorem resume (x key : UInt8) :
    Action.Respects Agrees (Machine.resume x key : Action (Machine HexPad ρ) Unit) := by
  unfold Machine.resume
  split
  · refine (setRegister x key).bind fun _ => Action.Respects.modify fun m t h => ?_
    exact { h with pc := congrArg (· + 2) h.pc, mode := rfl, pending := fun hne => absurd rfl hne }
  · exact fun m t h => ⟨rfl, h⟩

/-- While a key is awaited, the same press is delivered. -/
theorem step : Action.Respects Agrees (Machine.step : Action (Machine HexPad ρ) Mode) := by
  intro m t h
  cases hm : m.mode with
  | running =>
    have ht : t.mode = .running := h.mode.trans hm
    rw [step_running hm, step_running ht, h.fetch]
    cases m.fetch with
    | error e => exact ⟨rfl, h⟩
    | ok w =>
      obtain ⟨hr, hs⟩ := h.execute hm w
      simp only [hr, hs.mode]
      exact ⟨trivial, hs⟩
  | awaitingKey x =>
    have ht : t.mode = .awaitingKey x := h.mode.trans hm
    -- Here the pending presses are equal too, so both polls yield the same.
    have hpad : t.keypad = m.keypad := h.keypad_eq (by rw [hm]; exact Mode.noConfusion)
    rw [step_polling hm, step_polling ht, hpad]
    rcases Keypad.nextPress m.keypad with ⟨_ | key, keypad⟩
    · exact ⟨rfl, h.withKeypad rfl fun _ => rfl⟩
    · obtain ⟨hreply, hagrees⟩ := resume x key (h.withKeypad (q := keypad) rfl fun _ => rfl)
      simp only [hreply, hagrees.mode]
      exact ⟨trivial, hagrees⟩

end Agrees

end Machine

/-! ## Consoles -/

namespace Console

variable {ρ : Type}

structure Agrees (c d : Console ρ) : Prop where
  machine : c.machine.Agrees d.machine
  rom : d.rom = c.rom
  counter : d.counter = c.counter

namespace Agrees

variable {c d : Console ρ}

theorem refl (c : Console ρ) : c.Agrees c := ⟨.refl c.machine, rfl, rfl⟩

theorem onMachine {α : Type} {x : Action (Machine HexPad ρ) α}
    (hx : Action.Respects Machine.Agrees x) : Action.Respects Agrees (Console.onMachine x) :=
  fun _ _ h => ⟨(hx h.machine).1, (hx h.machine).2, h.rom, h.counter⟩

theorem load (rom : Array UInt8) :
    Action.Respects Agrees (Console.load rom : Action (Console ρ) Unit) := by
  refine Action.Respects.change fun c d h => ?_
  rcases h.machine.load rom with ⟨e, hc, hd⟩ | ⟨m, t, hc, hd, hm⟩
  · rw [hc, hd]
    exact .inl ⟨e, rfl, rfl⟩
  · rw [hc, hd]
    exact .inr ⟨_, _, rfl, rfl, hm, rfl, h.counter⟩

theorem press (key : UInt8) :
    Action.Respects Agrees (Console.press key : Action (Console ρ) Unit) := by
  refine Action.Respects.change fun c d h => ?_
  unfold HexPad.press
  split
  · refine .inr ⟨_, _, rfl, rfl, h.machine.withKeypad ?_ ?_, h.rom, h.counter⟩
    · simp only [h.machine.held]
    · exact fun hne => congrArg (· <|> some key) (h.machine.pending hne)
  · exact .inl ⟨_, rfl, rfl⟩

theorem release (key : UInt8) :
    Action.Respects Agrees (Console.release key : Action (Console ρ) Unit) := by
  refine Action.Respects.change fun c d h => ?_
  unfold HexPad.release
  split
  · refine .inr ⟨_, _, rfl, rfl, h.machine.withKeypad ?_ h.machine.pending, h.rom, h.counter⟩
    simp only [h.machine.held]
  · exact .inl ⟨_, rfl, rfl⟩

theorem paceTimers (h : c.Agrees d) : c.paceTimers.Agrees d.paceTimers := by
  unfold Console.paceTimers
  rw [h.counter]
  split
  · exact ⟨h.machine.tickTimers, h.rom, rfl⟩
  · exact ⟨h.machine, h.rom, rfl⟩

theorem reset : Action.Respects Agrees (Console.reset : Action (Console ρ) Unit) := by
  unfold Console.reset
  refine (Action.Respects.modify fun c d h => ?_).bind fun _ =>
    (Action.Respects.change fun c d h => ?_).bind fun _ => Action.Respects.modify fun c d h => ?_
  · exact ⟨h.machine.reset, h.rom, h.counter⟩
  · rw [h.rom]
    rcases h.machine.load c.rom with ⟨e, hc, hd⟩ | ⟨m, t, hc, hd, hm⟩
    · rw [hc, hd]
      exact .inl ⟨e, rfl, rfl⟩
    · rw [hc, hd]
      exact .inr ⟨_, _, rfl, rfl, hm, rfl, h.counter⟩
  · exact ⟨h.machine, h.rom, rfl⟩

/-! ### Calls -/

variable [ByteSource ρ]

theorem act {call : Call} (hcall : call ≠ .takeFrame) :
    Action.Respects Agrees (Console.act call : Action (Console ρ) Reply) := by
  cases call with
  | load rom => exact (load rom).bind fun _ => .pure _
  | step => exact (onMachine Machine.Agrees.step).bind fun _ => .pure _
  | paceTimers => exact (Action.Respects.modify fun c d h => h.paceTimers).bind fun _ => .pure _
  | press key => exact (press key).bind fun _ => .pure _
  | release key => exact (release key).bind fun _ => .pure _
  | takeFrame => exact absurd rfl hcall
  | reset => exact reset.bind fun _ => .pure _

end Agrees

variable [ByteSource ρ]

/-- What a driver gets to see: the reply to each call, or its fault. -/
def replies (c : Console ρ) : List Call → List (Except Fault Reply)
  | [] => []
  | call :: calls => (act call c).1 :: (act call c).2.replies calls

variable {c d : Console ρ}

theorem Agrees.runCalls (h : c.Agrees d) {calls : List Call} (hcalls : .takeFrame ∉ calls) :
    d.replies calls = c.replies calls ∧
      (Action.runCalls Console.act c calls).Agrees (Action.runCalls Console.act d calls) := by
  induction calls generalizing c d with
  | nil => exact ⟨rfl, h⟩
  | cons call calls ih =>
    obtain ⟨hne, hrest⟩ := List.ne_and_not_mem_of_not_mem_cons hcalls
    obtain ⟨hreply, hact⟩ := Agrees.act hne.symm h
    obtain ⟨hreplies, hrun⟩ := ih hact hrest
    exact ⟨by rw [replies, replies, hreply, hreplies], hrun⟩

/-! ### Ways to differ -/

omit [ByteSource ρ] in
theorem agrees_withMachine {machine : Machine HexPad ρ} (h : c.machine.Agrees machine) :
    c.Agrees { c with machine } := ⟨h, rfl, rfl⟩

/-- A key that was not down is up again; its press may be pending. -/
theorem agrees_tapped {key : UInt8} (hm : c.machine.mode = .running)
    (hup : c.machine.keypad.isHeld key = false) :
    c.Agrees (runCalls act c [.press key, .release key]) := by
  rw [runCalls_cons, runCalls_cons, runCalls_nil, act_press, act_release]
  by_cases hkey : key.toNat < keyCount
  · rw [press_ok (dif_pos hkey), release_ok (dif_pos hkey)]
    have hheld : (c.machine.keypad.held.set key.toNat true hkey).set key.toNat false hkey =
        c.machine.keypad.held := by
      ext j hj
      rw [Vector.getElem_set, Vector.getElem_set]
      split
      · subst j
        rw [HexPad.isHeld, Vector.getElem?_eq_getElem hkey, Option.getD_some] at hup
        exact hup.symm
      · rfl
    exact agrees_withMachine
      ((Machine.Agrees.refl c.machine).withKeypad hheld fun hne => absurd hm hne)
  · rw [press_error (dif_neg hkey), release_error (dif_neg hkey)]
    exact .refl c

/-- Consoles that differ in hidden state only answer alike, whatever is called, and differ in hidden
state only after every call. The sound timer is hidden, as are the slots behind the frames, whether
a frame was taken, and a tap on a key while none is awaited. -/
theorem hidden_state_unobservable (c : Console ρ) :
    (∀ d, c.Agrees d → ∀ calls, .takeFrame ∉ calls →
      d.replies calls = c.replies calls ∧
      ∀ n, (runCalls act c (calls.take n)).Agrees (runCalls act d (calls.take n))) ∧
    (∀ sound, c.Agrees { c with machine := { c.machine with sound } }) ∧
    (∀ stack, c.machine.stack.Agrees stack →
      c.Agrees { c with machine := { c.machine with stack } }) ∧
    c.Agrees c.takeFrame.2 ∧
    (∀ key, c.machine.mode = .running → c.machine.keypad.isHeld key = false →
      c.Agrees (runCalls act c [.press key, .release key])) := by
  have hrefl := Machine.Agrees.refl c.machine
  refine ⟨?_, ?_, ?_, ?_, ?_⟩
  · intro d h calls hcalls
    refine ⟨(h.runCalls hcalls).1, fun n => (h.runCalls fun hmem => hcalls ?_).2⟩
    exact List.mem_of_mem_take hmem
  · exact fun sound => agrees_withMachine { hrefl with }
  · exact fun stack hstack => agrees_withMachine { hrefl with stack := hstack }
  · exact agrees_withMachine { hrefl with }
  · exact fun key hm hup => agrees_tapped hm hup

/-- The second console holds a press, a frame that is gone and a running sound timer, and still
waits in step with the first. -/
theorem hidden_state_unobservable_in_wait :
    let c := fresh (WordCycle.ofList [])
    let d := { c with machine := { c.machine with
      sound := ⟨7⟩, redraw := true, stack := ⟨Vector.replicate _ 0x204, 0⟩,
      keypad := ⟨HexPad.idle.held, some 3⟩ } }
    let calls := [.load #[0xF1, 0x0A], .step, .step]
    c.Agrees d ∧ .takeFrame ∉ calls ∧ d.replies calls = c.replies calls ∧
      (runCalls act c calls).Agrees (runCalls act d calls) ∧
      c.machine.mode = .running ∧ c.machine.keypad.isHeld 3 = false ∧
      c.Agrees (runCalls act c [.press 3, .release 3]) := by
  intro c d calls
  have hagrees : c.Agrees d :=
    agrees_withMachine { Machine.Agrees.refl c.machine with
      stack := ⟨rfl, rfl⟩
      held := rfl
      pending := fun hne => absurd rfl hne }
  have hcalls : .takeFrame ∉ calls := by simp [calls]
  obtain ⟨answers, -, -, -, taps⟩ := hidden_state_unobservable c
  obtain ⟨hreplies, hruns⟩ := answers d hagrees calls hcalls
  have hup : c.machine.keypad.isHeld 3 = false := by decide
  exact ⟨hagrees, hcalls, hreplies, hruns 3, rfl, hup, taps 3 rfl hup⟩

end Console

end Chip8
