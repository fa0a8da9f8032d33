import Chip8.Proofs.Timers

/-!
# The pace of the timers

The counter starts again from `cyclesPerTick` and ticks at zero, so that a tick comes once in
`cyclesPerTick + 1` pacings and not once in `cyclesPerTick`. `ticks_add_div` counts the ticks of a
run in closed form; from it, eight pacings hold no tick if the first of them comes right behind
one, and a countdown falls behind a tick in every eight pacings from the ninth round of eight on.
-/

namespace Chip8.Console

open Chip8.Action (runCalls runCalls_append runCalls_concat Among)

variable {ρ : Type} {c : Console ρ} {call : Call} {calls : List Call} {paced : Nat}

/-! ## Ticks of a run -/

/-- The ticks up to a pacing are its number over `cyclesPerTick + 1`, rounded up. -/
theorem ticks_add_div (paced : Nat) (calls : List Call) :
    ticks paced calls + (paced + cyclesPerTick) / (cyclesPerTick + 1) =
      (paced + calls.count .paceTimers + cyclesPerTick) / (cyclesPerTick + 1) := by
  induction calls generalizing paced with
  | nil => exact Nat.zero_add _
  | cons call calls ih =>
    cases call with
    | paceTimers =>
      have hrest := ih (paced + 1)
      rw [List.count_cons_self]
      simp only [ticks, cyclesPerTick] at hrest ⊢
      split
      · omega
      · omega
    | _ => exact ih paced

variable [ByteSource ρ]

/-- How many of the calls tick the timers: a pacing does where the counter stands at zero. -/
def ticked (c : Console ρ) : List Call → Nat
  | [] => 0
  | call :: calls =>
    (if call = .paceTimers ∧ c.counter = 0 then 1 else 0) + ticked (act call c).2 calls

theorem Paced.ticked_eq (h : c.Paced paced) (hreset : .reset ∉ calls) :
    c.ticked calls = ticks paced calls := by
  induction calls generalizing c paced with
  | nil => rfl
  | cons call calls ih =>
    obtain ⟨hne, hrest⟩ := List.ne_and_not_mem_of_not_mem_cons hreset
    rw [ticked, ih (h.act hne.symm) hrest, ticks_cons]
    congr 1
    cases call with
    | paceTimers => simp [ticks, h.counter_eq_zero_iff]
    | _ => rfl

/-- Pacings write to no timer. -/
theorem not_among_writes_replicate (timer : Timer) (n : Nat) :
    ¬Among act (Writes timer) c (List.replicate n .paceTimers) := by
  rintro ⟨earlier, call, later, hcalls, b, hset⟩
  have hcall : call = .paceTimers :=
    List.eq_of_mem_replicate (hcalls ▸ List.mem_append_right _ (List.mem_cons_self ..))
  subst hcall
  cases hset

/-- A timer that is written before the first pacing, and not again. -/
theorem countdown_of_set_unpaced (earlier : List Call) {later : List Call} {timer : Timer}
    {v : UInt8} (hpaced : c.Paced 0) (hreset : .reset ∉ earlier ++ call :: later)
    (hearlier : earlier.count .paceTimers = 0) (hset : Sets timer (runCalls act c earlier) call v)
    (hnone : ¬Among act (Writes timer) (runCalls act c (earlier ++ [call])) later) :
    ((runCalls act c (earlier ++ call :: later)).machine.countdown timer).value.toNat =
      v.toNat - (later.count .paceTimers + cyclesPerTick) / (cyclesPerTick + 1) := by
  rw [List.mem_append, not_or] at hreset
  obtain ⟨hne, hlater⟩ := List.ne_and_not_mem_of_not_mem_cons hreset.2
  have hd := (hpaced.runCalls hreset.1).act hne.symm
  have hcall : [call].count Call.paceTimers = 0 := by
    cases hset with
    | step => rfl
  have hrun : runCalls act c (earlier ++ call :: later) =
      runCalls act (act call (runCalls act c earlier)).2 later :=
    runCalls_append c earlier (call :: later)
  have hticks := ticks_add_div 0 later
  rw [runCalls_concat] at hnone
  rw [hearlier, hcall] at hd
  rw [hrun, countdown_runCalls hd hlater hnone, countdown_of_sets hset]
  simp only [cyclesPerTick, Nat.zero_add] at hticks ⊢
  omega

/-! ## The pace -/

/-- Since the start or the last reset, of any eight pacings in a row exactly one ticks, unless the
first of them comes right behind a tick: then none does. A timer written before the first pacing
has lost an eighth of a multiple of eight pacings up to the eighth round of eight, and less from
then on, which shows for as long as it has not stopped. -/
theorem ticks_in_eight_pacings (source : ρ) {before since : List Call}
    (hbefore : before = [] ∨ ∃ prior, before = prior ++ [.reset]) (hsince : .reset ∉ since) :
    let start := runCalls act (fresh source) before
    (∀ earlier window later, since = earlier ++ window ++ later →
      window.count .paceTimers = cyclesPerTick →
      (runCalls act start earlier).ticked window =
        if earlier.count .paceTimers % (cyclesPerTick + 1) = 1 then 0 else 1) ∧
    (∀ timer v earlier call later k, since = earlier ++ call :: later →
      earlier.count .paceTimers = 0 → Sets timer (runCalls act start earlier) call v →
      ¬Among act (Writes timer) (runCalls act start (earlier ++ [call])) later →
      later.count .paceTimers = cyclesPerTick * k →
      let lost := (cyclesPerTick * k + cyclesPerTick) / (cyclesPerTick + 1)
      let value := ((runCalls act start since).machine.countdown timer).value.toNat
      value = v.toNat - lost ∧
      (value = v.toNat - k ↔ k ≤ cyclesPerTick ∨ v.toNat ≤ lost)) := by
  intro start
  obtain ⟨hpaced, -⟩ := timers_of_started source hbefore
  constructor
  · rintro earlier window later rfl hwindow
    rw [List.mem_append, List.mem_append, not_or, not_or] at hsince
    have hd := hpaced.runCalls hsince.1.1
    rw [Nat.zero_add] at hd
    have hticks := ticks_add_div (earlier.count .paceTimers) window
    rw [hd.ticked_eq hsince.1.2]
    rw [hwindow] at hticks
    simp only [cyclesPerTick] at hticks ⊢
    split
    · omega
    · omega
  · rintro timer v earlier call later k rfl hearlier hset hnone hlater lost value
    have hvalue : value = v.toNat - lost := by
      have hc := countdown_of_set_unpaced earlier hpaced hsince hearlier hset hnone
      rw [hlater] at hc
      exact hc
    refine ⟨hvalue, ?_⟩
    have hlost : lost = (cyclesPerTick * k + cyclesPerTick) / (cyclesPerTick + 1) := rfl
    rw [hvalue]
    simp only [cyclesPerTick] at hlost ⊢
    omega

/-! ## A delay of nine -/

/-- `6009` and `F015` set the delay timer to nine in their second cycle. -/
theorem sets_delay_to_nine (source : ρ) :
    Sets .delay (runCalls act (fresh source) [.load #[0x60, 0x09, 0xF0, 0x15], .step]) .step 9 := by
  -- Once they are named, the kernel does not compute the consoles.
  obtain ⟨loaded, hloaded⟩ :
      ∃ c, runCalls act (fresh source) [.load #[0x60, 0x09, 0xF0, 0x15]] = c := ⟨_, rfl⟩
  have hat : loaded.machine.At #[0x60, 0x09, 0xF0, 0x15] 0 := by
    rw [← hloaded]
    exact at_of_call_load source (by decide)
  have hp : loaded.machine.performed? = some (.loadByte 0 9) := hat.performed (by decide) rfl rfl
  obtain ⟨set, hset⟩ : ∃ d, (act .step loaded).2 = d := ⟨_, rfl⟩
  have hmachine : set.machine = loaded.machine.executed (.loadByte 0 9) := by
    rw [← hset, act_step_of_performed hp]
  have hnext : set.machine.At #[0x60, 0x09, 0xF0, 0x15] 2 := by
    rw [hmachine]
    exact hat.next (by decide) hat.running rfl rfl
  have hvalue : set.machine.v 0 = 9 := by
    rw [hmachine]
    exact Registers.cell_put_self 9 (by decide)
  have hrun : runCalls act (fresh source) [.load #[0x60, 0x09, 0xF0, 0x15], .step] = set := by
    rw [← hset, ← hloaded, ← runCalls_concat, List.cons_append, List.nil_append]
  rw [hrun, ← hvalue]
  exact .step (hnext.executes (by decide) (i := .setDelay 0) rfl rfl) rfl rfl

/-- Nine times eight pacings after it was set to nine, the delay timer still stands at one. -/
theorem delay_left_after_nine_rounds :
    let calls : List Call := .load #[0x60, 0x09, 0xF0, 0x15] :: .step :: .step ::
      List.replicate (8 * 9) .paceTimers
    ((runCalls act (fresh (WordCycle.ofList [])) calls).machine.countdown .delay).value.toNat = 1 ∧
      1 ≠ 9 - 9 := by
  intro calls
  have hpaced : (fresh (WordCycle.ofList [])).Paced 0 := rfl
  have hreset : Call.reset ∉ calls := by simp [calls]
  have hc := countdown_of_set_unpaced [.load #[0x60, 0x09, 0xF0, 0x15], .step] hpaced hreset rfl
    (sets_delay_to_nine _) (not_among_writes_replicate .delay (8 * 9))
  rw [List.count_replicate_self] at hc
  exact ⟨hc, by decide⟩

/-- The same console: eight rounds of eight pacings take nine to one, as a tick in every eight
does, and so does the ninth round; of the second to the ninth pacing none ticks. -/
theorem ticks_in_eight_pacings_from_nine :
    let pacings : Nat → List Call := fun k => List.replicate (8 * k) .paceTimers
    let calls : List Call := [.load #[0x60, 0x09, 0xF0, 0x15], .step]
    ∃ start set : Console WordCycle,
      runCalls act (fresh (WordCycle.ofList [])) [] = start ∧ runCalls act start calls = set ∧
      Sets .delay set .step 9 ∧
      ¬Among act (Writes .delay) (runCalls act start (calls ++ [.step])) (pacings 9) ∧
      .reset ∉ calls ++ .step :: pacings 9 ∧
      (runCalls act start (calls ++ [.step, .paceTimers])).ticked (pacings 1) = 0 ∧
      ((runCalls act start (calls ++ .step :: pacings 9)).machine.countdown .delay).value.toNat =
        9 - 80 / 9 := by
  intro pacings calls
  have hreset : Call.reset ∉ calls ++ .step :: pacings 9 := by simp [calls, pacings]
  obtain ⟨hwindow, hvalue⟩ := ticks_in_eight_pacings (WordCycle.ofList []) (.inl rfl) hreset
  obtain ⟨start, hstart⟩ : ∃ c, runCalls act (fresh (WordCycle.ofList [])) [] = c := ⟨_, rfl⟩
  have hset := sets_delay_to_nine (WordCycle.ofList [])
  have hnone :=
    not_among_writes_replicate (c := runCalls act start (calls ++ [.step])) .delay (8 * 9)
  have hsplit : calls ++ .step :: pacings 9 =
      calls ++ [.step, .paceTimers] ++ pacings 1 ++ List.replicate 63 .paceTimers := by decide
  refine ⟨start, _, hstart, rfl, ?_, hnone, hreset, ?_, ?_⟩
  · rw [← hstart]
    exact hset
  · have h := hwindow _ _ _ hsplit (by decide)
    rw [hstart] at h
    exact h
  · have h := hvalue .delay 9 calls .step (pacings 9) 9 rfl rfl hset
      (by rw [hstart]; exact hnone) (by decide)
    rw [hstart] at h
    exact h.1

end Chip8.Console
