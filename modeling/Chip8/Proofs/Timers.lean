import Chip8.Proofs.Programs
import Chip8.Proofs.Reset
import Chip8.Proofs.Table

/-!
# The timers over a run

Two clocks drive the timers: the program writes them by `Fx15` and `Fx18`, and the driver paces
both at once. Which calls tick depends on how often the driver paced them and on nothing else, and
between two writes a timer only counts ticks. `Paced` is the invariant of the counter,
`countdown_of_not_writes` says what one call does to a timer, and `countdown_runCalls` is the
induction over a run.
-/

namespace Chip8

open Chip8.Action (runCalls runCalls_nil runCalls_cons runCalls_append runCalls_concat Among
  among_cons not_among_nil)

inductive Timer where
  | delay
  | sound
  deriving DecidableEq, Repr

namespace Timer

/-- The low byte of the opcodes that write the timer. -/
def setter : Timer → UInt8
  | delay => 0x15
  | sound => 0x18

/-- The instruction that writes `Vx` to the timer. -/
def setting : Timer → UInt8 → Instruction
  | delay => .setDelay
  | sound => .setSound

variable {timer : Timer} {w : Opcode}

theorem row_setting (hf : w.family = 0xF) (hk : w.kk = timer.setter) :
    w.Row (timer.setting w.x) := by
  cases timer with
  | delay => exact .setDelay hf hk
  | sound => exact .setSound hf hk

theorem setter_of_row {x : UInt8} (h : w.Row (timer.setting x)) :
    w.family = 0xF ∧ w.kk = timer.setter := by
  cases timer with
  | delay =>
    cases h with
    | setDelay hf hk => exact ⟨hf, hk⟩
  | sound =>
    cases h with
    | setSound hf hk => exact ⟨hf, hk⟩

end Timer

/-! ## Steps -/

namespace Machine

variable {κ ρ : Type} {m t : Machine κ ρ} {timer : Timer}

def countdown (m : Machine κ ρ) : Timer → Countdown
  | .delay => m.delay
  | .sound => m.sound

theorem countdown_congr (hd : t.delay = m.delay) (hs : t.sound = m.sound) :
    t.countdown timer = m.countdown timer := by
  cases timer with
  | delay => exact hd
  | sound => exact hs

theorem countdown_tickTimers (m : Machine κ ρ) (timer : Timer) :
    m.tickTimers.countdown timer = (m.countdown timer).tick := by
  cases timer with
  | delay => rfl
  | sound => rfl

variable [Keypad κ] [ByteSource ρ]

theorem countdown_executed_setting (m : Machine κ ρ) (timer : Timer) (x : UInt8) :
    ((m.executed (timer.setting x)).countdown timer).value = m.v x := by
  cases timer with
  | delay => rfl
  | sound => rfl

theorem countdown_executed_of_ne {i : Instruction} (h : ∀ x, i ≠ timer.setting x) :
    (m.executed i).countdown timer = m.countdown timer := by
  cases timer with
  | delay =>
    cases i with
    | setDelay x => exact absurd rfl (h x)
    | _ => rfl
  | sound =>
    cases i with
    | setSound x => exact absurd rfl (h x)
    | _ => rfl

theorem countdown_step_of_executes {w : Opcode} (h : m.Executes w) (hf : w.family = 0xF)
    (hk : w.kk = timer.setter) : ((step m).2.countdown timer).value = m.v w.x := by
  have hp : m.performed? = some (timer.setting w.x) :=
    performed?_eq_some_iff.mpr ⟨w, h, Instruction.decode?_of_row (Timer.row_setting hf hk)⟩
  rw [(step_of_performed hp).2.2]
  exact countdown_executed_setting m timer w.x

/-- No other step writes the timer, whether it polls, faults or performs an instruction. -/
theorem countdown_step_of_not_executes
    (h : ∀ w, m.Executes w → ¬(w.family = 0xF ∧ w.kk = timer.setter)) :
    (step m).2.countdown timer = m.countdown timer := by
  cases hm : m.mode with
  | awaitingKey x =>
    obtain ⟨registers, pc, mode, keypad, hs, -⟩ := step_awaiting_frame hm
    rw [hs]
    exact countdown_congr rfl rfl
  | running =>
    rcases step_cases hm with ⟨-, e, hs⟩ | ⟨i, hp, -, -, hs⟩
    · rw [hs]
    · rw [hs]
      apply countdown_executed_of_ne
      rintro x rfl
      obtain ⟨w, hw, hd⟩ := performed?_eq_some_iff.mp hp
      exact h w hw (Timer.setter_of_row (Instruction.row_of_decode? hd))

/-- `Fx07` stores the delay timer. -/
theorem get_step_of_loadDelay {w : Opcode} (h : m.Executes w) (hf : w.family = 0xF)
    (hk : w.kk = 0x07) : (step m).2.registers.get w.x = .ok m.delay.value := by
  have hp : m.performed? = some (.loadDelay w.x) :=
    performed?_eq_some_iff.mpr ⟨w, h, Instruction.decode?_of_row (.loadDelay hf hk)⟩
  rw [(step_of_performed hp).2.2]
  exact Registers.get_put_self m.delay.value w.toNat_x_lt

end Machine

namespace Console

variable {ρ : Type} {c : Console ρ} {call : Call} {calls : List Call} {timer : Timer}
  {paced : Nat}

/-! ## Ticks -/

/-- How many of the calls tick the timers, if these were paced `paced` times before: the first
pacing ticks, and every ninth one after it. -/
def ticks (paced : Nat) : List Call → Nat
  | [] => 0
  | .paceTimers :: calls =>
    (if paced % (cyclesPerTick + 1) = 0 then 1 else 0) + ticks (paced + 1) calls
  | _ :: calls => ticks paced calls

theorem ticks_cons (paced : Nat) (call : Call) (calls : List Call) :
    ticks paced (call :: calls) =
      ticks paced [call] + ticks (paced + [call].count .paceTimers) calls := by
  cases call with
  | paceTimers => rfl
  | _ => exact (Nat.zero_add _).symm

/-- The counter stands as after `paced` pacings from zero. -/
def Paced (paced : Nat) (c : Console ρ) : Prop :=
  c.counter = (cyclesPerTick + 1 - paced % (cyclesPerTick + 1)) % (cyclesPerTick + 1)

namespace Paced

theorem counter_le (h : c.Paced paced) : c.counter ≤ cyclesPerTick := by
  unfold Paced at h
  simp only [cyclesPerTick] at h ⊢
  omega

theorem counter_eq_zero_iff (h : c.Paced paced) :
    c.counter = 0 ↔ paced % (cyclesPerTick + 1) = 0 := by
  unfold Paced at h
  simp only [cyclesPerTick] at h ⊢
  omega

theorem machine_paceTimers (h : c.Paced paced) :
    c.paceTimers.machine =
      if paced % (cyclesPerTick + 1) = 0 then c.machine.tickTimers else c.machine := by
  unfold Console.paceTimers
  by_cases hc : c.counter = 0
  · rw [if_pos hc, if_pos (h.counter_eq_zero_iff.mp hc)]
  · rw [if_neg hc, if_neg (mt h.counter_eq_zero_iff.mpr hc)]

theorem paceTimers (h : c.Paced paced) : c.paceTimers.Paced (paced + 1) := by
  unfold Paced Console.paceTimers at *
  simp only [cyclesPerTick] at h ⊢
  split
  · simp only
    omega
  · simp only
    omega

end Paced

/-! ## Calls -/

variable [ByteSource ρ]

/-- The call is a step that executes `Fx15`, or `Fx18` for the sound timer, with `b` in `Vx`. -/
inductive Sets (timer : Timer) (c : Console ρ) : Call → UInt8 → Prop
  | step {w : Opcode} : c.machine.Executes w → w.family = 0xF → w.kk = timer.setter →
      Sets timer c .step (c.machine.v w.x)

def Writes (timer : Timer) (c : Console ρ) (call : Call) : Prop := ∃ b, Sets timer c call b

/-- What neither steps, paces nor resets leaves the timers and their counter. -/
theorem timers_act (hstep : call ≠ .step) (hpace : call ≠ .paceTimers) (hreset : call ≠ .reset) :
    (act call c).2.counter = c.counter ∧
      ∀ timer, (act call c).2.machine.countdown timer = c.machine.countdown timer := by
  cases call with
  | load rom =>
    rw [act_load]
    cases hl : c.machine.load rom with
    | ok machine =>
      obtain ⟨-, hmachine⟩ := Machine.load_frame hl
      rw [load_ok hl, hmachine]
      exact ⟨rfl, fun _ => Machine.countdown_congr rfl rfl⟩
    | error e =>
      rw [load_error hl]
      exact ⟨rfl, fun _ => rfl⟩
  | press key =>
    obtain ⟨keypad, hk⟩ := press_frame c key
    rw [act_press, hk]
    exact ⟨rfl, fun _ => Machine.countdown_congr rfl rfl⟩
  | release key =>
    obtain ⟨keypad, hk⟩ := release_frame c key
    rw [act_release, hk]
    exact ⟨rfl, fun _ => Machine.countdown_congr rfl rfl⟩
  | takeFrame => exact ⟨rfl, fun _ => Machine.countdown_congr rfl rfl⟩
  | step => exact absurd rfl hstep
  | paceTimers => exact absurd rfl hpace
  | reset => exact absurd rfl hreset

/-- Steps leave the counter, also those that fault. -/
theorem Paced.act (h : c.Paced paced) (hcall : call ≠ .reset) :
    (act call c).2.Paced (paced + [call].count .paceTimers) := by
  by_cases hstep : call = .step
  · subst hstep
    rw [act_step]
    exact h
  by_cases hpace : call = .paceTimers
  · subst hpace
    exact h.paceTimers
  · have hcounter : (Console.act call c).2.counter = c.counter :=
      (timers_act hstep hpace hcall).1
    have hcount : [call].count .paceTimers = 0 :=
      List.count_eq_zero.mpr fun hmem => hpace (List.mem_singleton.mp hmem).symm
    rw [hcount]
    exact hcounter.trans h

theorem countdown_of_sets {b : UInt8} (h : Sets timer c call b) :
    ((act call c).2.machine.countdown timer).value = b := by
  cases h with
  | step hw hf hk =>
    rw [act_step]
    exact Machine.countdown_step_of_executes hw hf hk

/-- A call that does not write the timer takes off it the tick that it makes, if it makes one. -/
theorem countdown_of_not_writes (hp : c.Paced paced) (hcall : call ≠ .reset)
    (h : ¬Writes timer c call) :
    ((act call c).2.machine.countdown timer).value.toNat =
      (c.machine.countdown timer).value.toNat - ticks paced [call] := by
  by_cases hstep : call = .step
  · subst hstep
    have hs : (Machine.step c.machine).2.countdown timer = c.machine.countdown timer :=
      Machine.countdown_step_of_not_executes fun w hw hset => h ⟨_, .step hw hset.1 hset.2⟩
    rw [act_step]
    simp only [hs]
    rfl
  by_cases hpace : call = .paceTimers
  · subst hpace
    rw [act_paceTimers, hp.machine_paceTimers]
    simp only [ticks]
    split
    · rw [Machine.countdown_tickTimers, Countdown.toNat_tick]
    · rfl
  · have hticks : ticks paced [call] = 0 := by
      cases call with
      | paceTimers => exact absurd rfl hpace
      | _ => rfl
    rw [(timers_act hstep hpace hcall).2 timer, hticks, Nat.sub_zero]

/-! ## Runs -/

theorem Paced.runCalls (h : c.Paced paced) (hreset : .reset ∉ calls) :
    (Action.runCalls Console.act c calls).Paced (paced + calls.count .paceTimers) := by
  induction calls generalizing c paced with
  | nil => exact h
  | cons call calls ih =>
    obtain ⟨hne, hrest⟩ := List.ne_and_not_mem_of_not_mem_cons hreset
    have hcount : (call :: calls).count Call.paceTimers =
        [call].count .paceTimers + calls.count .paceTimers := by
      rw [← List.count_append]
      rfl
    rw [runCalls_cons, hcount, ← Nat.add_assoc]
    exact ih (h.act hne.symm) hrest

/-- Between two writes a timer only counts ticks. -/
theorem countdown_runCalls (hp : c.Paced paced) (hreset : .reset ∉ calls)
    (h : ¬Among act (Writes timer) c calls) :
    ((runCalls act c calls).machine.countdown timer).value.toNat =
      (c.machine.countdown timer).value.toNat - ticks paced calls := by
  induction calls generalizing c paced with
  | nil => rfl
  | cons call calls ih =>
    obtain ⟨hne, hrest⟩ := List.ne_and_not_mem_of_not_mem_cons hreset
    rw [among_cons, not_or] at h
    rw [runCalls_cons, ih (hp.act hne.symm) hrest h.2,
      countdown_of_not_writes hp hne.symm h.1, ticks_cons paced call calls, Nat.sub_sub]

/-- The timers and their counter at the start and just after a reset. -/
theorem timers_of_started (source : ρ) {calls : List Call}
    (h : calls = [] ∨ ∃ prior, calls = prior ++ [.reset]) :
    let c := runCalls act (fresh source) calls
    c.Paced 0 ∧ ∀ timer, (c.machine.countdown timer).value = 0 := by
  rcases h with rfl | ⟨prior, rfl⟩
  · refine ⟨rfl, fun timer => ?_⟩
    cases timer with
    | delay => rfl
    | sound => rfl
  · have hfits : (runCalls act (fresh source) prior).rom.size ≤ programCapacity :=
      runCalls_rom_fits (Nat.zero_le _) prior
    rw [runCalls_concat, act_reset, reset_eq hfits]
    refine ⟨rfl, fun timer => ?_⟩
    cases timer with
    | delay => rfl
    | sound => rfl

/-- Since the start or the last reset, the first pacing and every ninth one after it tick both
timers, and no other call does, whatever the machine executes in between. A timer is therefore
what was last written to it, or zero, less the ticks since then, as far as that goes; this is what
`Fx07` reads, and the buzzer sounds while it is positive. -/
theorem timers_count_ticks (source : ρ) {before since : List Call}
    (hbefore : before = [] ∨ ∃ prior, before = prior ++ [.reset]) (hsince : .reset ∉ since) :
    let start := runCalls act (fresh source) before
    let c := runCalls act start since
    c.counter ≤ cyclesPerTick ∧
    (∀ earlier later, since = earlier ++ .paceTimers :: later →
      let d := runCalls act start earlier
      (act .paceTimers d).2.machine =
        if earlier.count .paceTimers % (cyclesPerTick + 1) = 0 then d.machine.tickTimers
        else d.machine) ∧
    (∀ timer, ¬Among act (Writes timer) start since → (c.machine.countdown timer).value = 0) ∧
    (∀ timer b earlier call later, since = earlier ++ call :: later →
      Sets timer (runCalls act start earlier) call b →
      ¬Among act (Writes timer) (runCalls act start (earlier ++ [call])) later →
      (c.machine.countdown timer).value.toNat =
        b.toNat - ticks (earlier.count .paceTimers) later) ∧
    (∀ w, c.machine.Executes w → w.family = 0xF → w.kk = 0x07 →
      (act .step c).2.machine.registers.get w.x = .ok (c.machine.countdown .delay).value) ∧
    (c.isBuzzing = true ↔ 0 < (c.machine.countdown .sound).value.toNat) := by
  intro start c
  obtain ⟨hpaced, hstopped⟩ := timers_of_started source hbefore
  refine ⟨(hpaced.runCalls hsince).counter_le, ?_, ?_, ?_, ?_, ?_⟩
  · rintro earlier later rfl d
    have hearlier : .reset ∉ earlier := fun hmem => hsince (List.mem_append_left _ hmem)
    have hd := hpaced.runCalls hearlier
    rw [Nat.zero_add] at hd
    exact hd.machine_paceTimers
  · intro timer hnone
    have hc := countdown_runCalls hpaced hsince hnone
    rw [hstopped timer, UInt8.toNat_zero, Nat.zero_sub] at hc
    exact UInt8.toNat_inj.mp hc
  · rintro timer b earlier call later rfl hset hnone
    rw [List.mem_append, not_or] at hsince
    obtain ⟨hne, hlater⟩ := List.ne_and_not_mem_of_not_mem_cons hsince.2
    have hd := (hpaced.runCalls hsince.1).act hne.symm
    have hcall : [call].count Call.paceTimers = 0 := by
      cases hset with
      | step => rfl
    rw [hcall, Nat.zero_add, Nat.add_zero] at hd
    have hc : c = runCalls act (act call (runCalls act start earlier)).2 later :=
      runCalls_append start earlier (call :: later)
    rw [runCalls_concat] at hnone
    rw [hc, countdown_runCalls hd hlater hnone, countdown_of_sets hset]
  · intro w hw hf hk
    rw [act_step]
    exact Machine.get_step_of_loadDelay hw hf hk
  · show decide (c.machine.sound.value > 0) = true ↔ _
    rw [decide_eq_true_iff]
    exact UInt8.lt_iff_toNat_lt

/-- `6002` and `F018` behind a reset: the first of two pacings ticks, the second does not, and the
delay timer was never written. -/
theorem timers_count_ticks_once :
    let before : List Call := [.load #[0x60, 0x02, 0xF0, 0x18], .reset]
    let later : List Call := [.paceTimers, .paceTimers]
    ∃ start set c : Console WordCycle,
      runCalls act (fresh (WordCycle.ofList [])) before = start ∧ runCalls act start [.step] = set ∧
      runCalls act start (.step :: .step :: later) = c ∧
      (∃ prior, before = prior ++ [.reset]) ∧ .reset ∉ .step :: .step :: later ∧
      Sets .sound set .step 2 ∧
      ¬Among act (Writes .sound) (runCalls act start [.step, .step]) later ∧
      (c.machine.countdown .sound).value.toNat = 2 - 1 ∧ c.isBuzzing = true ∧
      ¬Among act (Writes .delay) start (.step :: .step :: later) ∧
      (c.machine.countdown .delay).value = 0 ∧ c.counter ≤ cyclesPerTick := by
  intro before later
  have hreset : before = [.load #[0x60, 0x02, 0xF0, 0x18]] ++ [.reset] := rfl
  have hsince : Call.reset ∉ Call.step :: .step :: later := by decide
  obtain ⟨hcounter, -, hnever, hlast, -, hbuzz⟩ :=
    timers_count_ticks (WordCycle.ofList []) (.inr ⟨_, hreset⟩) hsince
  -- Once they are named, the kernel does not compute the consoles.
  obtain ⟨start, hstart⟩ : ∃ c, runCalls act (fresh (WordCycle.ofList [])) before = c := ⟨_, rfl⟩
  have hat : start.machine.At #[0x60, 0x02, 0xF0, 0x18] 0 := by
    rw [← hstart]
    exact ⟨rfl, rfl, Memory.fresh, rfl⟩
  have hfetch : start.machine.fetch = .ok 0x6002 := hat.fetch (by decide)
  have hp : start.machine.performed? = some (.loadByte 0 2) := hat.performed (by decide) rfl rfl
  obtain ⟨set, hset⟩ : ∃ d, runCalls act start [.step] = d := ⟨_, rfl⟩
  have hmachine : set.machine = start.machine.executed (.loadByte 0 2) := by
    rw [← hset, runCalls_cons, runCalls_nil, act_step_of_performed hp]
  have hnext : set.machine.At #[0x60, 0x02, 0xF0, 0x18] 2 := by
    rw [hmachine]
    exact hat.next (by decide) hat.running rfl rfl
  have hfetch' : set.machine.fetch = .ok 0xF018 := hnext.fetch (by decide)
  have hvalue : set.machine.v 0 = 2 := by
    rw [hmachine]
    exact Registers.cell_put_self 2 (by decide)
  have hsets : Sets .sound set .step 2 := by
    rw [← hvalue]
    exact .step (hnext.executes (by decide) (i := .setSound 0) rfl rfl) rfl rfl
  have hpacing : ∀ (timer : Timer) (d : Console WordCycle), ¬Among act (Writes timer) d later := by
    intro timer d
    rw [among_cons, among_cons]
    rintro (⟨_, h⟩ | ⟨_, h⟩ | h)
    · cases h
    · cases h
    · exact not_among_nil h
  have hdelay : ¬Among act (Writes .delay) start (.step :: .step :: later) := by
    rw [among_cons, among_cons]
    rintro (⟨_, h⟩ | ⟨_, h⟩ | h)
    · cases h with
      | step hw hf => cases hfetch.symm.trans hw.fetch; cases hf
    · have hd : (act .step start).2 = set := hset
      rw [hd] at h
      cases h with
      | step hw hf hk => cases hfetch'.symm.trans hw.fetch; cases hk
    · exact hpacing _ _ h
  rw [hstart] at hcounter hnever hlast hbuzz
  have hsound := hlast .sound 2 [.step] .step later rfl (by rw [hset]; exact hsets) (hpacing _ _)
  refine ⟨start, set, _, hstart, hset, rfl, ⟨_, hreset⟩, hsince, hsets, hpacing _ _, hsound, ?_,
    hdelay, hnever .delay hdelay, hcounter⟩
  rw [hbuzz, hsound]
  decide

end Console

end Chip8
