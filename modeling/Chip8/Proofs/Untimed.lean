import Chip8.Proofs.Hidden
import Chip8.Proofs.Programs
import Chip8.Proofs.Table

/-!
# Timing

What a program can learn of time. The timers tick at the pace of the driver and only `Fx07` reads
one; what sets a timer does not ask how far it had run. Until a program executes `Fx07`, neither it
nor the driver can tell when and how often the timers were paced: `untimed` leaves the timers and
their counter out, and `observed` is what the other calls show of the rest.
-/

namespace Chip8

open Chip8.Action (Among among_cons not_among_nil)

/-! ## Steps -/

namespace Machine

variable {κ ρ : Type} {m t : Machine κ ρ}

/-- The machine, its timers left out. -/
def untimed (m : Machine κ ρ) : Machine κ ρ := { m with delay := .stopped, sound := .stopped }

theorem untimed_eq_iff : t.untimed = m.untimed ↔ ∃ delay sound, t = { m with delay, sound } := by
  constructor
  · intro h
    refine ⟨t.delay, t.sound, ?_⟩
    exact congrArg (fun s : Machine κ ρ => { s with delay := t.delay, sound := t.sound }) h
  · rintro ⟨delay, sound, rfl⟩
    rfl

theorem mode_untimed (h : t.untimed = m.untimed) : t.mode = m.mode := by
  obtain ⟨delay, sound, rfl⟩ := untimed_eq_iff.mp h
  rfl

theorem load_untimed (h : t.untimed = m.untimed) (program : Array UInt8) :
    (∃ e, m.load program = .error e ∧ t.load program = .error e) ∨
      ∃ m' t', m.load program = .ok m' ∧ t.load program = .ok t' ∧ t'.untimed = m'.untimed := by
  obtain ⟨delay, sound, rfl⟩ := untimed_eq_iff.mp h
  unfold load
  cases m.memory.load program with
  | error e => exact .inl ⟨e, rfl, rfl⟩
  | ok memory => exact .inr ⟨_, _, rfl, rfl, rfl⟩

theorem fault?_untimed (h : t.untimed = m.untimed) (i : Instruction) : t.fault? i = m.fault? i := by
  obtain ⟨delay, sound, rfl⟩ := untimed_eq_iff.mp h
  cases i with
  | _ => rfl

theorem setRegister_untimed (x b : UInt8) :
    Action.Respects (fun m t : Machine κ ρ => t.untimed = m.untimed) (setRegister x b) := by
  refine .change fun m t h => ?_
  obtain ⟨delay, sound, rfl⟩ := untimed_eq_iff.mp h
  cases m.registers.set x b with
  | error e => exact .inl ⟨e, rfl, rfl⟩
  | ok registers => exact .inr ⟨_, _, rfl, rfl, rfl⟩

theorem resume_untimed (x key : UInt8) :
    Action.Respects (fun m t : Machine κ ρ => t.untimed = m.untimed) (resume x key) := by
  unfold resume
  split
  · refine (setRegister_untimed x key).bind fun _ => .modify fun m t h => ?_
    obtain ⟨delay, sound, rfl⟩ := untimed_eq_iff.mp h
    rfl
  · exact fun m t h => ⟨rfl, h⟩

variable [Keypad κ] [ByteSource ρ]

/-- What sets a timer sets it to the same value in both. -/
theorem executed_untimed (h : t.untimed = m.untimed) {i : Instruction}
    (hi : ∀ x, i ≠ .loadDelay x) : (t.executed i).untimed = (m.executed i).untimed := by
  obtain ⟨delay, sound, rfl⟩ := untimed_eq_iff.mp h
  cases i with
  | loadDelay x => exact absurd rfl (hi x)
  | _ => rfl

theorem execute_untimed (h : t.untimed = m.untimed) {w : Opcode}
    (hw : ∀ x, Instruction.decode? w ≠ some (.loadDelay x)) :
    (execute w t).1 = (execute w m).1 ∧ (execute w t).2.untimed = (execute w m).2.untimed := by
  rw [execute_eq, execute_eq]
  cases hd : Instruction.decode? w with
  | none => exact ⟨rfl, h⟩
  | some i =>
    simp only [fault?_untimed h i]
    cases m.fault? i with
    | some e => exact ⟨rfl, h⟩
    | none => exact ⟨rfl, executed_untimed h fun x hx => hw x (by rw [hd, hx])⟩

theorem Executes.untimed {w : Opcode} (hw : m.Executes w) (h : t.untimed = m.untimed) :
    t.Executes w := by
  obtain ⟨i, hd, hf, -⟩ := execute_ok_iff.mp (Prod.ext hw.ok rfl : execute w m = (.ok (), _))
  have hok : execute w t = (.ok (), t.executed i) :=
    execute_ok_iff.mpr ⟨i, hd, (fault?_untimed h i).trans hf, rfl⟩
  obtain ⟨delay, sound, rfl⟩ := untimed_eq_iff.mp h
  exact ⟨hw.mode, hw.fetch, congrArg Prod.fst hok⟩

/-- The next step executes `Fx07`. -/
def ReadsDelay (m : Machine κ ρ) : Prop := ∃ w, m.Executes w ∧ w.family = 0xF ∧ w.kk = 0x07

theorem readsDelay_untimed (h : t.untimed = m.untimed) : t.ReadsDelay ↔ m.ReadsDelay :=
  ⟨fun ⟨w, hw, hread⟩ => ⟨w, hw.untimed h.symm, hread⟩,
    fun ⟨w, hw, hread⟩ => ⟨w, hw.untimed h, hread⟩⟩

theorem not_readsDelay_of_fetch {w : Opcode} (hw : m.fetch = .ok w)
    (h : w.family ≠ 0xF ∨ w.kk ≠ 0x07) : ¬m.ReadsDelay := by
  rintro ⟨w', hw', hf, hk⟩
  cases hw.symm.trans hw'.fetch
  exact h.elim (absurd hf) (absurd hk)

/-- As `Fx07` never faults, it is executed if it is fetched. -/
theorem decode?_ne_of_not_readsDelay {w : Opcode} (hm : m.mode = .running) (hw : m.fetch = .ok w)
    (h : ¬m.ReadsDelay) (x : UInt8) : Instruction.decode? w ≠ some (.loadDelay x) := by
  intro hd
  have hok : execute w m = (.ok (), m.executed (.loadDelay x)) :=
    execute_ok_iff.mpr ⟨_, hd, rfl, rfl⟩
  cases Instruction.row_of_decode? hd with
  | loadDelay hf hk => exact h ⟨w, ⟨hm, hw, congrArg Prod.fst hok⟩, hf, hk⟩

theorem step_untimed (h : t.untimed = m.untimed) (hr : ¬m.ReadsDelay) :
    (step t).1 = (step m).1 ∧ (step t).2.untimed = (step m).2.untimed := by
  have ht : t.mode = m.mode := mode_untimed h
  cases hm : m.mode with
  | running =>
    have hfetch : t.fetch = m.fetch := by
      obtain ⟨delay, sound, rfl⟩ := untimed_eq_iff.mp h
      rfl
    rw [step_running hm, step_running (ht.trans hm), hfetch]
    cases hw : m.fetch with
    | error e => exact ⟨rfl, h⟩
    | ok w =>
      obtain ⟨hreply, hstate⟩ := execute_untimed h (decode?_ne_of_not_readsDelay hm hw hr)
      simp only [hreply, mode_untimed hstate]
      exact ⟨trivial, hstate⟩
  | awaitingKey x =>
    obtain ⟨delay, sound, rfl⟩ := untimed_eq_iff.mp h
    rw [step_polling hm, step_polling (ht.trans hm)]
    -- Both polls yield the same, and leave the same keypad behind.
    rcases Keypad.nextPress m.keypad with ⟨_ | key, keypad⟩
    · exact ⟨rfl, rfl⟩
    · have hpolled : { m with delay, sound, keypad }.untimed = { m with keypad }.untimed := rfl
      obtain ⟨hreply, hstate⟩ := resume_untimed x key hpolled
      simp only [hreply, mode_untimed hstate]
      exact ⟨trivial, hstate⟩

end Machine

/-! ## Calls -/

namespace Console

variable {ρ : Type} {c d : Console ρ}

/-- The console, its timers and their counter left out. -/
def untimed (c : Console ρ) : Console ρ := { c with machine := c.machine.untimed, counter := 0 }

theorem untimed_eq_iff : d.untimed = c.untimed ↔
    ∃ delay sound counter,
      d = { c with machine := { c.machine with delay, sound }, counter } := by
  constructor
  · intro h
    refine ⟨d.machine.delay, d.machine.sound, d.counter, ?_⟩
    exact congrArg (fun b : Console ρ => { b with
      machine := { b.machine with delay := d.machine.delay, sound := d.machine.sound }
      counter := d.counter }) h
  · rintro ⟨delay, sound, counter, rfl⟩
    rfl

/-- Pacing changes what is left out, and nothing else. -/
theorem untimed_paceTimers (c : Console ρ) : c.paceTimers.untimed = c.untimed := by
  obtain ⟨delay, sound, counter, h⟩ := paceTimers_frame c
  rw [h]
  rfl

theorem load_untimed (rom : Array UInt8) :
    Action.Respects (fun c d : Console ρ => d.untimed = c.untimed) (Console.load rom) := by
  refine .change fun c d h => ?_
  obtain ⟨delay, sound, counter, rfl⟩ := untimed_eq_iff.mp h
  have hmachine : { c.machine with delay, sound }.untimed = c.machine.untimed := rfl
  rcases Machine.load_untimed hmachine rom with ⟨e, hc, hd⟩ | ⟨m, t, hc, hd, hm⟩
  · rw [hc, hd]
    exact .inl ⟨e, rfl, rfl⟩
  · rw [hc, hd]
    exact .inr ⟨_, _, rfl, rfl, congrArg (fun m => { c with machine := m, rom, counter := 0 }) hm⟩

theorem changeKeypad_untimed (f : HexPad → Except Fault HexPad) :
    Action.Respects (fun c d : Console ρ => d.untimed = c.untimed)
      (Action.change fun c => (f c.machine.keypad).map c.withKeypad) := by
  refine .change fun c d h => ?_
  obtain ⟨delay, sound, counter, rfl⟩ := untimed_eq_iff.mp h
  cases f c.machine.keypad with
  | error e => exact .inl ⟨e, rfl, rfl⟩
  | ok keypad => exact .inr ⟨_, _, rfl, rfl, rfl⟩

theorem reset_untimed :
    Action.Respects (fun c d : Console ρ => d.untimed = c.untimed) Console.reset := by
  intro c d h
  obtain ⟨delay, sound, counter, rfl⟩ := untimed_eq_iff.mp h
  simp only [Console.reset, Action.bind_apply, Action.modify_apply]
  have hmachine : Machine.reset { c.machine with delay, sound } = c.machine.reset := rfl
  rw [hmachine]
  cases hl : c.machine.reset.load c.rom with
  | error e =>
    rw [Action.change_apply_error (by rw [hl]; rfl), Action.change_apply_error (by rw [hl]; rfl)]
    exact ⟨rfl, rfl⟩
  | ok machine =>
    rw [Action.change_apply_ok (by rw [hl]; rfl), Action.change_apply_ok (by rw [hl]; rfl)]
    exact ⟨rfl, rfl⟩

variable [ByteSource ρ] {call : Call} {calls calls' : List Call}

/-- The call is a step that executes `Fx07`. -/
def ReadsDelay (c : Console ρ) (call : Call) : Prop := call = .step ∧ c.machine.ReadsDelay

/-- Unless it paces the timers or executes `Fx07`, a call does the same whatever they are. -/
theorem act_untimed (h : d.untimed = c.untimed) (hcall : call ≠ .paceTimers)
    (hr : ¬c.ReadsDelay call) :
    (act call d).1 = (act call c).1 ∧ (act call d).2.untimed = (act call c).2.untimed := by
  cases call with
  | load rom => exact (load_untimed rom).bind (fun _ => .pure _) h
  | step =>
    have hmachine : d.machine.untimed = c.machine.untimed := congrArg machine h
    obtain ⟨hreply, hstate⟩ := Machine.step_untimed hmachine fun hm => hr ⟨rfl, hm⟩
    obtain ⟨delay, sound, counter, rfl⟩ := untimed_eq_iff.mp h
    rw [act_step, act_step, hreply]
    exact ⟨rfl, congrArg (fun m => { c with machine := m, counter := 0 }) hstate⟩
  | paceTimers => exact absurd rfl hcall
  | press key => exact (changeKeypad_untimed (·.press key)).bind (fun _ => .pure _) h
  | release key => exact (changeKeypad_untimed (·.release key)).bind (fun _ => .pure _) h
  | takeFrame =>
    obtain ⟨delay, sound, counter, rfl⟩ := untimed_eq_iff.mp h
    exact ⟨rfl, rfl⟩
  | reset => exact reset_untimed.bind (fun _ => .pure _) h

theorem readsDelay_untimed (h : d.untimed = c.untimed) :
    d.ReadsDelay call ↔ c.ReadsDelay call := by
  have hmachine : d.machine.untimed = c.machine.untimed := congrArg machine h
  exact and_congr_right fun _ => Machine.readsDelay_untimed hmachine

/-! ## Runs -/

/-- The replies to all calls but those that pace the timers, and after each of these calls the
console with its timers and their counter left out. -/
def observed (c : Console ρ) : List Call → List (Except Fault Reply × Console ρ)
  | [] => []
  | .paceTimers :: calls => (act .paceTimers c).2.observed calls
  | call :: calls => ((act call c).1, (act call c).2.untimed) :: (act call c).2.observed calls

theorem observed_cons (hcall : call ≠ .paceTimers) : c.observed (call :: calls) =
    ((act call c).1, (act call c).2.untimed) :: (act call c).2.observed calls := by
  cases call with
  | paceTimers => exact absurd rfl hcall
  | _ => rfl

/-- The calls that do not pace the timers. -/
def unpaced (calls : List Call) : List Call := calls.filter (· ≠ .paceTimers)

theorem unpaced_cons (hcall : call ≠ .paceTimers) :
    unpaced (call :: calls) = call :: unpaced calls :=
  List.filter_cons_of_pos (decide_eq_true hcall)

/-- Whoever paces the timers less often, or never, sees the same. -/
theorem observed_unpaced (h : d.untimed = c.untimed) (hr : ¬Among act ReadsDelay c calls) :
    d.observed (unpaced calls) = c.observed calls := by
  induction calls generalizing c d with
  | nil => rfl
  | cons call calls ih =>
    rw [among_cons, not_or] at hr
    by_cases hcall : call = .paceTimers
    · subst hcall
      exact ih (h.trans (untimed_paceTimers c).symm) hr.2
    · obtain ⟨hreply, hstate⟩ := act_untimed h hcall hr.1
      rw [unpaced_cons hcall, observed_cons hcall, observed_cons hcall, hreply, hstate,
        ih hstate hr.2]

/-- Nor does pacing change whether and when `Fx07` is executed. -/
theorem among_readsDelay_unpaced (h : d.untimed = c.untimed) :
    Among act ReadsDelay d (unpaced calls) ↔ Among act ReadsDelay c calls := by
  induction calls generalizing c d with
  | nil => exact iff_of_false not_among_nil not_among_nil
  | cons call calls ih =>
    rw [among_cons]
    by_cases hcall : call = .paceTimers
    · subst hcall
      have hpace : ¬c.ReadsDelay .paceTimers := fun hr => nomatch hr.1
      rw [or_iff_right hpace]
      exact ih (h.trans (untimed_paceTimers c).symm)
    · rw [unpaced_cons hcall, among_cons, readsDelay_untimed h]
      by_cases hr : c.ReadsDelay call
      · exact iff_of_true (.inl hr) (.inl hr)
      · rw [ih (act_untimed h hcall hr).2]

/-- Two consoles that differ in their timers and the counter at most get the same calls, apart from
pacing, which may come at any time and differently often. If no step of the one executes `Fx07`,
then neither does a step of the other, and each of the common calls has the same reply from both
and leaves both the same, again apart from their timers and the counter. -/
theorem timing_unobservable (h : d.untimed = c.untimed) (hcalls : unpaced calls' = unpaced calls)
    (hr : ¬Among act ReadsDelay c calls) :
    d.observed calls' = c.observed calls ∧ ¬Among act ReadsDelay d calls' := by
  have hd : ¬Among act ReadsDelay d calls' := by
    rw [← among_readsDelay_unpaced rfl, hcalls, among_readsDelay_unpaced h]
    exact hr
  refine ⟨?_, hd⟩
  calc d.observed calls' = d.observed (unpaced calls') := (observed_unpaced rfl hd).symm
    _ = d.observed (unpaced calls) := congrArg d.observed hcalls
    _ = c.observed calls := observed_unpaced h hr

/-- `6002` and `F015` on consoles of which one had its timers and the counter running, and is paced
before, within and after. -/
theorem timing_unobservable_once :
    let rom : Array UInt8 := #[0x60, 0x02, 0xF0, 0x15]
    let calls : List Call := [.load rom, .step, .paceTimers, .step, .takeFrame]
    let calls' : List Call :=
      [.paceTimers, .load rom, .step, .step, .paceTimers, .takeFrame, .paceTimers]
    ∃ c d : Console WordCycle, fresh (WordCycle.ofList []) = c ∧
      d = { c with machine := { c.machine with delay := ⟨9⟩, sound := ⟨7⟩ }, counter := 3 } ∧
      d.untimed = c.untimed ∧ unpaced calls' = unpaced calls ∧ ¬Among act ReadsDelay c calls ∧
      d.observed calls' = c.observed calls ∧ ¬Among act ReadsDelay d calls' := by
  intro rom calls calls'
  -- Once it is named, the kernel does not compute the console.
  obtain ⟨c, hc⟩ : ∃ c, fresh (WordCycle.ofList []) = c := ⟨_, rfl⟩
  have hmode : c.machine.mode = .running := by rw [← hc]; rfl
  have hpc : c.machine.pc = 0x200 := by rw [← hc]; rfl
  obtain ⟨loaded, hload⟩ : ∃ t, c.machine.load rom = .ok t :=
    ⟨_, Machine.load_eq_ok_iff.mpr ⟨by decide, rfl⟩⟩
  have hat : loaded.At #[0x60, 0x02, 0xF0, 0x15] 0 := Machine.at_of_load hload hmode hpc
  have hp : loaded.performed? = some (.loadByte 0 2) := hat.performed (by decide) rfl rfl
  have hnext : (loaded.executed (.loadByte 0 2)).At #[0x60, 0x02, 0xF0, 0x15] 2 :=
    hat.next (by decide) hat.running rfl rfl
  have hr : ¬Among act ReadsDelay c calls := by
    have hfirst : (act (.load rom) c).2.machine = loaded := by rw [act_load, load_ok hload]
    have hsecond : (act .paceTimers (act .step (act (.load rom) c).2).2).2.machine.fetch =
        .ok 0xF015 := by
      obtain ⟨delay, sound, counter, hpace⟩ := paceTimers_frame (act .step (act (.load rom) c).2).2
      rw [← hfirst] at hp hnext
      rw [act_paceTimers, hpace, act_step_of_performed hp]
      exact hnext.fetch (by decide)
    rw [among_cons, among_cons, among_cons, among_cons, among_cons]
    rintro (⟨h, -⟩ | ⟨-, h⟩ | ⟨h, -⟩ | ⟨-, h⟩ | ⟨h, -⟩ | h)
    · cases h
    · rw [hfirst] at h
      exact Machine.not_readsDelay_of_fetch (hat.fetch (by decide)) (.inl (by decide)) h
    · cases h
    · exact Machine.not_readsDelay_of_fetch hsecond (.inr (by decide)) h
    · cases h
    · exact not_among_nil h
  have hcalls : unpaced calls' = unpaced calls := by decide
  obtain ⟨d, hd⟩ : ∃ d : Console WordCycle,
      d = { c with machine := { c.machine with delay := ⟨9⟩, sound := ⟨7⟩ }, counter := 3 } :=
    ⟨_, rfl⟩
  have huntimed : d.untimed = c.untimed := untimed_eq_iff.mpr ⟨_, _, _, hd⟩
  exact ⟨c, d, hc, hd, huntimed, hcalls, hr, timing_unobservable huntimed hcalls hr⟩

end Console

end Chip8
