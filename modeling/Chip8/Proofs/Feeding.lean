import Chip8.Proofs.Cycles

/-!
# Feeding scripted keys

A session presses a scripted key in the cycle that reports a wait, and the machine takes the press
up in the next cycle. A cycle therefore starts in one of two ways: the machine is running and no
press is pending (`Ready`), or it waits for `Vx` and a valid press is pending (`Fed`). No key is
held in either. `Settled.cycle` says all that a cycle can come to from there; the lemmas about runs
follow it from cycle to cycle and count the keys against the waits.
-/

namespace Chip8

/-! ## Keypads whose keys are all up -/

theorem HexPad.isHeld_idle (k : UInt8) : HexPad.idle.isHeld k = false := by
  simp only [idle, isHeld, Vector.getElem?_replicate]
  split
  · rfl
  · rfl

theorem HexPad.isHeld_tapped (p : HexPad) (key k : UInt8) :
    (p.tapped key).isHeld k = (k != key && p.isHeld k) := by
  by_cases hk : k = key
  · subst hk
    by_cases hlt : k.toNat < keyCount
    · simp [tapped, isHeld, hlt]
    · simp [tapped, isHeld, Nat.le_of_not_lt hlt]
  · have hne : key.toNat ≠ k.toNat := fun e => hk (UInt8.toNat_inj.mp e.symm)
    simp [tapped, isHeld, hne, hk]

/-- Asking a keypad with no press pending leaves it alone, and so does forgetting its presses. -/
theorem Machine.keypadAfter_of_pending_none {ρ : Type} {m : Machine HexPad ρ}
    (h : m.keypad.pending = none) (i : Instruction) : m.keypadAfter i = m.keypad := by
  unfold Machine.keypadAfter
  split
  · rfl
  · rfl
  · show HexPad.forgetPress m.keypad = m.keypad
    rw [HexPad.forgetPress, ← h]
  · rfl

namespace Session

variable {ρ : Type} {s t u : Session ρ} {x key : UInt8}

/-! ## How a cycle starts -/

structure Ready (s : Session ρ) : Prop where
  mode : s.console.machine.mode = .running
  pending : s.console.machine.keypad.pending = none
  released : ∀ k, s.console.machine.keypad.isHeld k = false

structure Fed (s : Session ρ) (x key : UInt8) : Prop where
  mode : s.console.machine.mode = .awaitingKey x
  pending : s.console.machine.keypad.pending = some key
  released : ∀ k, s.console.machine.keypad.isHeld k = false
  register_lt : x.toNat < registerCount
  key_le : key ≤ 0xF

def Settled (s : Session ρ) : Prop := s.Ready ∨ ∃ x key, s.Fed x key

theorem Settled.released (h : s.Settled) (k : UInt8) :
    s.console.machine.keypad.isHeld k = false := by
  rcases h with hready | ⟨x, key, hfed⟩
  · exact hready.released k
  · exact hfed.released k

/-- The part of a cycle behind the step touches timers, counters and the frame only. -/
theorem finishCycle_frame (s : Session ρ) : ∃ delay sound redraw counter frame elapsed,
    finishCycle s = { s with
      console := { s.console with
        machine := { s.console.machine with delay, sound, redraw }
        counter }
      frame, elapsed } := by
  obtain ⟨delay, sound, counter, hp⟩ := Console.paceTimers_frame s.console
  exact ⟨delay, sound, false, counter, _, _, by rw [finishCycle, hp]; rfl⟩

theorem Ready.finishCycle (h : s.Ready) : (finishCycle s).Ready := by
  obtain ⟨delay, sound, redraw, counter, frame, elapsed, hs⟩ := finishCycle_frame s
  rw [hs]
  exact { h with }

theorem Fed.finishCycle (h : s.Fed x key) : (finishCycle s).Fed x key := by
  obtain ⟨delay, sound, redraw, counter, frame, elapsed, hs⟩ := finishCycle_frame s
  rw [hs]
  exact { h with }

theorem registers_finishCycle (s : Session ρ) :
    (finishCycle s).console.machine.registers = s.console.machine.registers := by
  obtain ⟨delay, sound, redraw, counter, frame, elapsed, hs⟩ := finishCycle_frame s
  rw [hs]

variable [ByteSource ρ]

/-! ## What a cycle comes to -/

/-- The register of the wait that the next cycle begins, if it begins one. -/
def begins? (s : Session ρ) : Option UInt8 :=
  match s.console.machine.performed? with
  | some (.awaitKey x) => some x
  | _ => none

theorem begins?_eq_some : s.begins? = some x ↔
    s.console.machine.performed? = some (.awaitKey x) := by
  unfold begins?
  split
  · rename_i h
    rw [h]
    simp
  · rename_i hne
    exact ⟨fun e => (nomatch e), fun e => absurd e (hne x)⟩

theorem Fed.begins?_eq_none (h : s.Fed x key) : s.begins? = none := by
  rw [begins?, Machine.performed?_of_awaiting h.mode]

/-- What a cycle comes to: the session behind it, and the ending if it is the last one. -/
inductive Comes (s : Session ρ) : Session ρ × Option Ending → Prop
  /-- The machine goes on running, maybe behind a wait that ended. -/
  | on {t : Session ρ} : s.begins? = none → t.Ready → t.keys = s.keys → Comes s (t, none)
  | fed {t : Session ρ} {x key : UInt8} : s.begins? = some x → s.keys = key :: t.keys →
      t.Fed x key → Comes s (t, none)
  | starved {t : Session ρ} {x : UInt8} : s.begins? = some x → s.keys = [] →
      Comes s (t, some (.starved x))
  | refused {t : Session ρ} {x key : UInt8} : s.begins? = some x →
      s.keys = key :: t.keys → ¬key ≤ 0xF → t.console.machine.mode = .awaitingKey x →
      Comes s (t, some (.refused (.noSuchKey key)))
  | faulted {t : Session ρ} {e : Fault} : s.begins? = none → Comes s (t, some (.faulted e))

/-- A wait that begins is fed from the script, is starved, or is offered a key that is refused. -/
theorem Ready.cycle_of_wait (h : s.Ready) (hb : s.begins? = some x) : s.Comes s.cycle := by
  have hp := begins?_eq_some.mp hb
  have hx : x.toNat < registerCount :=
    (Machine.step_of_performed hp).1 (.register x) (by simp [Instruction.operands])
  have hstep := Console.stepMachine_of_performed hp
  have hreply : (Console.stepMachine s.console).1 = .ok (.awaitingKey x) :=
    congrArg Prod.fst hstep
  have hstepped : s.stepped.console.machine = s.console.machine.executed (.awaitKey x) :=
    congrArg (·.2.machine) hstep
  have hpad : s.stepped.console.machine.keypad = s.console.machine.keypad := by
    rw [hstepped]
    exact Machine.keypadAfter_of_pending_none h.pending (.awaitKey x)
  have hmode : s.stepped.console.machine.mode = .awaitingKey x := by rw [hstepped]; rfl
  rcases hkeys : s.keys with _ | ⟨key, keys⟩
  · rw [cycle_starved hreply hkeys]
    exact .starved hb hkeys
  by_cases hkey : key ≤ 0xF
  · rw [cycle_fed hreply hkeys hkey]
    refine .fed hb hkeys (Fed.finishCycle ⟨hmode, ?_, ?_, hx, hkey⟩)
    · show (s.stepped.console.machine.keypad.pending <|> some key) = some key
      rw [hpad, h.pending]
      rfl
    · intro k
      show (s.stepped.console.machine.keypad.tapped key).isHeld k = false
      rw [HexPad.isHeld_tapped, hpad, h.released k, Bool.and_false]
  · rw [cycle_refused hreply hkeys hkey]
    exact .refused hb hkeys hkey hmode

theorem Ready.cycle (h : s.Ready) : s.Comes s.cycle := by
  rcases hb : s.begins? with _ | x
  · rcases Machine.step_cases h.mode with ⟨-, e, hs⟩ | ⟨i, hp, -, -, -⟩
    · rw [cycle_faulted (e := e) (congrArg Prod.fst hs)]
      exact .faulted hb
    · have hstep := Console.stepMachine_of_performed hp
      have hmode : (s.console.machine.executed i).mode = .running := by
        show s.console.machine.modeAfter i = .running
        unfold Machine.modeAfter
        split
        · cases hb.symm.trans (begins?_eq_some.mpr hp)
        · exact h.mode
      rw [cycle_running ((congrArg Prod.fst hstep).trans (congrArg Except.ok hmode))]
      have hstepped : s.stepped.console.machine = s.console.machine.executed i :=
        congrArg (·.2.machine) hstep
      have hpad : s.stepped.console.machine.keypad = s.console.machine.keypad := by
        rw [hstepped]
        exact Machine.keypadAfter_of_pending_none h.pending i
      exact .on hb (Ready.finishCycle
        ⟨hstepped ▸ hmode, hpad ▸ h.pending, hpad ▸ h.released⟩) rfl
  · exact h.cycle_of_wait hb

/-- The pending press is delivered, and the machine runs again. -/
theorem Fed.step (h : s.Fed x key) :
    Console.stepMachine s.console = (.ok .running, { s.console with
      machine := { s.console.machine with keypad := s.console.machine.keypad.forgetPress }.resumed
        x key }) := by
  rw [Console.stepMachine, Console.onMachine, Machine.step_pressed h.mode h.register_lt h.pending
    (HexPad.le_iff_lt.mp h.key_le)]

theorem Fed.cycle_eq (h : s.Fed x key) : ∃ t, s.cycle = (t, none) ∧ t.Ready ∧ t.keys = s.keys ∧
    t.console.machine.registers = s.console.machine.registers.put x key := by
  have hreply : (Console.stepMachine s.console).1 = .ok .running := congrArg Prod.fst h.step
  have hstepped : s.stepped.console.machine = _ := congrArg (·.2.machine) h.step
  refine ⟨_, cycle_running hreply, Ready.finishCycle ⟨?_, ?_, ?_⟩, rfl, ?_⟩
  · rw [hstepped]
    rfl
  · rw [hstepped]
    rfl
  · intro k
    rw [hstepped]
    exact h.released k
  · rw [registers_finishCycle, hstepped]
    rfl

theorem Settled.cycle (h : s.Settled) : s.Comes s.cycle := by
  rcases h with hready | ⟨x, key, hfed⟩
  · exact hready.cycle
  · obtain ⟨t, ht, hready, hkeys, -⟩ := hfed.cycle_eq
    rw [ht]
    exact .on hfed.begins?_eq_none hready hkeys

/-! ## Runs -/

/-- The session at the start of each cycle that a run begins, in order. -/
def starts : (budget : Nat) → Session ρ → List (Session ρ)
  | 0, _ => []
  | budget + 1, s =>
    s :: match s.cycle with
      | (t, none) => starts budget t
      | (_, some _) => []

variable {budget n j : Nat}

theorem mem_starts_succ (s : Session ρ) (budget : Nat) : s ∈ s.starts (budget + 1) :=
  List.mem_cons_self

theorem getElem?_starts_succ : (s.starts (budget + 1))[n + 1]? = some t ↔
    ∃ u, s.cycle = (u, none) ∧ (u.starts budget)[n]? = some t := by
  rw [starts, List.getElem?_cons_succ]
  rcases s.cycle with ⟨u, _ | ending⟩
  · simp
  · simp

/-- From the start of any of its cycles a run goes on as it would if it began there. -/
theorem starts_suffix (h : (s.starts budget)[n]? = some t) :
    n < budget ∧ (s.starts budget).drop n = t.starts (budget - n) ∧
      s.run budget = t.run (budget - n) := by
  induction n generalizing s budget with
  | zero =>
    cases budget with
    | zero => cases h
    | succ budget =>
      cases h
      exact ⟨Nat.succ_pos _, rfl, rfl⟩
  | succ n ih =>
    cases budget with
    | zero => cases h
    | succ budget =>
      obtain ⟨u, hu, ht⟩ := getElem?_starts_succ.mp h
      obtain ⟨hn, hdrop, hrun⟩ := ih ht
      refine ⟨Nat.succ_lt_succ hn, ?_, ?_⟩
      · rw [starts, hu, List.drop_succ_cons, hdrop, Nat.succ_sub_succ]
      · rw [run, hu, Nat.succ_sub_succ]
        exact hrun

/-- A run begins another cycle if the last one did not end it and the budget has one more. -/
theorem getElem?_starts_next (h : (s.starts budget)[n]? = some t) :
    (s.starts budget)[n + 1]? = some u ↔ n + 1 < budget ∧ t.cycle = (u, none) := by
  obtain ⟨hn, hdrop, -⟩ := starts_suffix h
  have hnext : (s.starts budget)[n + 1]? = (t.starts (budget - n))[1]? := by
    rw [← hdrop, List.getElem?_drop]
  obtain ⟨rest, hrest⟩ : ∃ rest, budget - n = rest + 1 := ⟨budget - n - 1, by omega⟩
  rw [hnext, hrest, getElem?_starts_succ]
  cases rest with
  | zero =>
    have hlast : ¬n + 1 < budget := by omega
    simp [starts, hlast]
  | succ rest =>
    have hmore : n + 1 < budget := by omega
    simp [starts, hmore, eq_comm, and_comm]

theorem run_of_cycle {ending : Ending} (h : (s.starts budget)[n]? = some t)
    (hc : t.cycle = (u, some ending)) : s.run budget = (u, ending) := by
  obtain ⟨hn, -, hrun⟩ := starts_suffix h
  obtain ⟨rest, hrest⟩ : ∃ rest, budget - n = rest + 1 := ⟨budget - n - 1, by omega⟩
  rw [hrun, hrest, run, hc]

/-- A run that does not spend its budget ends with one of its cycles. -/
theorem ending_cases (budget : Nat) (s : Session ρ) : (s.run budget).2 = .spent ∨
    ∃ (n : Nat) (t : Session ρ), (s.starts budget)[n]? = some t ∧
      t.cycle = ((s.run budget).1, some (s.run budget).2) := by
  induction budget generalizing s with
  | zero => exact .inl rfl
  | succ budget ih =>
    rw [run]
    rcases hc : s.cycle with ⟨u, _ | ending⟩
    · rcases ih u with hspent | ⟨n, t, ht, hcycle⟩
      · exact .inl hspent
      · exact .inr ⟨n + 1, t, getElem?_starts_succ.mpr ⟨u, hc, ht⟩, hcycle⟩
    · exact .inr ⟨0, s, rfl, hc⟩

/-- Every cycle of a run starts settled, and each wait before it took one key. -/
theorem Settled.at_start (h : s.Settled) (ht : (s.starts budget)[n]? = some t) :
    t.Settled ∧ ∃ taken, s.keys = taken ++ t.keys ∧
      taken.length = (((s.starts budget).take n).filterMap begins?).length := by
  induction n generalizing s budget with
  | zero =>
    cases budget with
    | zero => cases ht
    | succ budget =>
      cases ht
      exact ⟨h, [], rfl, rfl⟩
  | succ n ih =>
    cases budget with
    | zero => cases ht
    | succ budget =>
      obtain ⟨u, hu, ht⟩ := getElem?_starts_succ.mp ht
      have hcomes := h.cycle
      rw [hu] at hcomes
      rw [starts, hu, List.take_succ_cons]
      cases hcomes with
      | on hb hready hkeys =>
        obtain ⟨hsettled, taken, htaken, hlength⟩ := ih (.inl hready) ht
        refine ⟨hsettled, taken, hkeys ▸ htaken, ?_⟩
        rw [List.filterMap_cons_none hb, hlength]
      | @fed _ x key hb hkeys hfed =>
        obtain ⟨hsettled, taken, htaken, hlength⟩ := ih (.inr ⟨x, key, hfed⟩) ht
        refine ⟨hsettled, key :: taken, ?_, ?_⟩
        · rw [hkeys, htaken, List.cons_append]
        · rw [List.filterMap_cons_some hb, List.length_cons, List.length_cons, hlength]

/-! ## Waits -/

/-- Wait number `j` of the run, counted from 0, begins in cycle `n` and is for `Vx`. -/
def Enters (s : Session ρ) (budget j n : Nat) (x : UInt8) : Prop :=
  ∃ t, (s.starts budget)[n]? = some t ∧ t.begins? = some x ∧
    (((s.starts budget).take n).filterMap begins?).length = j

/-- A wait finds the keys that the waits before it left. -/
theorem Settled.at_wait (h : s.Settled) (he : s.Enters budget j n x) :
    ∃ t, (s.starts budget)[n]? = some t ∧ t.begins? = some x ∧ t.Comes t.cycle ∧
      ∃ taken, s.keys = taken ++ t.keys ∧ taken.length = j := by
  obtain ⟨t, ht, hb, hj⟩ := he
  obtain ⟨hsettled, taken, htaken, hlength⟩ := h.at_start ht
  exact ⟨t, ht, hb, hsettled.cycle, taken, htaken, hlength.trans hj⟩

/-- A wait behind the last key starves the run, an invalid key ends it, and a valid one is pending
at the start of the next cycle. -/
theorem Settled.wait_cases (h : s.Settled) (he : s.Enters budget j n x) :
    s.keys.length = j ∧ (s.run budget).2 = .starved x ∨
    ∃ key, s.keys[j]? = some key ∧
      if key ≤ 0xF then n + 1 < budget → ∃ u, (s.starts budget)[n + 1]? = some u ∧ u.Fed x key
      else (s.run budget).2 = .refused (.noSuchKey key) ∧
        (s.run budget).1.console.machine.mode = .awaitingKey x := by
  obtain ⟨t, ht, hb, hcomes, taken, htaken, rfl⟩ := h.at_wait he
  have hget : ∀ {key keys}, t.keys = key :: keys → s.keys[taken.length]? = some key := by
    intro key keys hkeys
    rw [htaken, hkeys, List.getElem?_append_right (Nat.le_refl _), Nat.sub_self]
    rfl
  generalize hc : t.cycle = outcome at hcomes
  cases hcomes with
  | on hnone => cases hb.symm.trans hnone
  | faulted hnone => cases hb.symm.trans hnone
  | starved hy hkeys =>
    cases hb.symm.trans hy
    left
    rw [htaken, hkeys, List.append_nil, run_of_cycle ht hc]
    exact ⟨rfl, rfl⟩
  | @fed u y key hy hkeys hfed =>
    cases hb.symm.trans hy
    refine .inr ⟨key, hget hkeys, ?_⟩
    rw [if_pos hfed.key_le]
    exact fun hn => ⟨u, (getElem?_starts_next ht).mpr ⟨hn, hc⟩, hfed⟩
  | @refused u y key hy hkeys hbad hmode =>
    cases hb.symm.trans hy
    refine .inr ⟨key, hget hkeys, ?_⟩
    rw [if_neg hbad, run_of_cycle ht hc]
    exact ⟨rfl, hmode⟩

/-- A run is starved by the wait behind the last key, and by no other. -/
theorem Settled.starved_iff (h : s.Settled) :
    (s.run budget).2 = .starved x ↔ ∃ n, s.Enters budget s.keys.length n x := by
  constructor
  · intro hstarved
    rcases ending_cases budget s with hspent | ⟨n, t, ht, hc⟩
    · cases hspent.symm.trans hstarved
    · rw [hstarved] at hc
      obtain ⟨hsettled, taken, htaken, hlength⟩ := h.at_start ht
      have hcomes := hsettled.cycle
      rw [hc] at hcomes
      cases hcomes with
      | starved hb hkeys =>
        rw [hkeys, List.append_nil] at htaken
        exact ⟨n, t, ht, hb, by rw [← hlength, ← htaken]⟩
  · rintro ⟨n, he⟩
    rcases h.wait_cases he with ⟨-, hstarved⟩ | ⟨key, hkey, -⟩
    · exact hstarved
    · rw [List.getElem?_eq_none (Nat.le_refl _)] at hkey
      cases hkey

/-- The reply to a step is a wait only in the cycle that begins it. -/
theorem Settled.reply (h : s.Settled) :
    (Console.stepMachine s.console).1 = .ok (.awaitingKey x) ↔ s.begins? = some x := by
  rcases h with hready | ⟨y, key, hfed⟩
  · constructor
    · intro hreply
      have hmode : (Machine.step s.console.machine).2.mode = .awaitingKey x := by
        have hstep : (Machine.step s.console.machine).1 = .ok (.awaitingKey x) := hreply
        rcases Machine.step_cases hready.mode with ⟨-, e, hs⟩ | ⟨i, -, -, -, hs⟩
        · rw [hs] at hstep
          cases hstep
        · rw [hs] at hstep ⊢
          exact Except.ok.inj hstep
      rcases Machine.awaiting_of_step hmode with hwait | hp
      · cases hready.mode.symm.trans hwait
      · exact begins?_eq_some.mpr hp
    · intro hb
      exact congrArg Prod.fst (Console.stepMachine_of_performed (begins?_eq_some.mp hb))
  · constructor
    · intro hreply
      rw [hfed.step] at hreply
      cases hreply
    · intro hb
      cases hfed.begins?_eq_none.symm.trans hb

/-! ## Keys that are asked for -/

/-- A step whose instruction moves nothing but the program counter. -/
theorem step_of_after_eq {w : Opcode} {i : Instruction}
    (hmode : s.console.machine.mode = .running) (hw : s.console.machine.fetch = .ok w)
    (hd : Instruction.decode w = .ok i) (hf : s.console.machine.fault? i = none)
    (hi : s.console.machine.after i = s.console.machine) :
    Console.stepMachine s.console = (.ok .running, { s.console with
      machine := { s.console.machine with
        pc := (s.console.machine.flow i).target s.console.machine.pc } }) := by
  have hp := Machine.performed_of_fetch hmode hw (Instruction.decode_eq_ok_iff.mp hd) hf
  rw [Console.stepMachine_of_performed hp, Machine.executed, hi]
  exact Prod.ext (congrArg Except.ok hmode) rfl

omit [ByteSource ρ] in
theorem Settled.flow_skipKeyDown (h : s.Settled) (x : UInt8) :
    s.console.machine.flow (.skipKeyDown x) = .next := by
  have hup : (Keypad.isDown s.console.machine.keypad (s.console.machine.v x)).1 = false :=
    h.released _
  rw [Machine.flow, hup]
  rfl

omit [ByteSource ρ] in
theorem Settled.flow_skipKeyUp (h : s.Settled) (x : UInt8) :
    s.console.machine.flow (.skipKeyUp x) = .skip := by
  have hup : (Keypad.isDown s.console.machine.keypad (s.console.machine.v x)).1 = false :=
    h.released _
  rw [Machine.flow, hup]
  rfl

/-! ## Sessions from a fresh console -/

omit [ByteSource ρ] in
theorem ready_start (rom : Array UInt8) (source : ρ) (keys : List UInt8) :
    (start (Console.load rom (.fresh source)).2 keys).Ready := by
  have hfresh : ∀ console : Console ρ, console.machine.mode = .running →
      console.machine.keypad = .idle → (start console keys).Ready := by
    intro console hmode hpad
    refine ⟨hmode, ?_, ?_⟩
    · show console.machine.keypad.pending = none
      rw [hpad]
      rfl
    · intro k
      show console.machine.keypad.isHeld k = false
      rw [hpad]
      exact HexPad.isHeld_idle k
  cases hl : (Console.fresh source).machine.load rom with
  | error e =>
    rw [Console.load_error hl]
    exact hfresh _ rfl rfl
  | ok machine =>
    obtain ⟨-, rfl⟩ := Machine.load_eq_ok_iff.mp hl
    rw [Console.load_ok hl]
    exact hfresh _ rfl rfl

/-- For any ROM, source, budget and keys: a step replies that a key is awaited if it begins a wait,
and never twice in a row; in no cycle does the machine find a key down; a wait is resumed in the
next cycle with the key of its number, ends the run if that key is refused, and starves the run if
there is no such key. -/
theorem script_feeds_waits_in_order (source : ρ) (rom : Array UInt8) (keys : List UInt8)
    (budget : Nat) :
    let s : Session ρ := start (Console.load rom (.fresh source)).2 keys
    let cycles := s.starts budget
    (∀ t ∈ cycles, ∀ x,
      (Console.stepMachine t.console).1 = .ok (.awaitingKey x) ↔ t.begins? = some x) ∧
    (∀ n t u x y, cycles[n]? = some t → cycles[n + 1]? = some u →
      (Console.stepMachine t.console).1 = .ok (.awaitingKey x) →
      (Console.stepMachine u.console).1 ≠ .ok (.awaitingKey y)) ∧
    (∀ t ∈ cycles,
      let m := t.console.machine
      (∀ k, (Keypad.isDown m.keypad k).1 = false) ∧
      ∀ w x, m.mode = .running → m.fetch = .ok w → m.v x ≤ 0xF →
        (Instruction.decode w = .ok (.skipKeyDown x) → Console.stepMachine t.console =
          (.ok .running, { t.console with machine := { m with pc := m.pc + 2 } })) ∧
        (Instruction.decode w = .ok (.skipKeyUp x) → Console.stepMachine t.console =
          (.ok .running, { t.console with machine := { m with pc := m.pc + 4 } }))) ∧
    (∀ j n x key, s.Enters budget j n x → keys[j]? = some key → key ≤ 0xF → n + 1 < budget →
      ∃ u, cycles[n + 1]? = some u ∧ u.console.machine.mode = .awaitingKey x ∧
        (Console.stepMachine u.console).1 = .ok .running ∧
        (Console.stepMachine u.console).2.machine.registers.get x = .ok key) ∧
    (∀ x, (s.run budget).2 = .starved x ↔ ∃ n, s.Enters budget keys.length n x) ∧
    (∀ n x, s.Enters budget keys.length n x → (s.run budget).2.fault? = none) ∧
    ∀ j n x key, s.Enters budget j n x → keys[j]? = some key → ¬key ≤ 0xF →
      (s.run budget).2.fault? = some (.noSuchKey key) ∧
      (s.run budget).1.console.machine.mode = .awaitingKey x := by
  intro s cycles
  have hs : s.Settled := .inl (ready_start rom source keys)
  have hsettled : ∀ {n : Nat} {t : Session ρ}, cycles[n]? = some t → t.Settled :=
    fun ht => (hs.at_start ht).1
  have hmember : ∀ {t : Session ρ}, t ∈ cycles → t.Settled := by
    intro t ht
    obtain ⟨n, hn⟩ := List.getElem?_of_mem ht
    exact hsettled hn
  have hstarved : ∀ x, (s.run budget).2 = .starved x ↔ ∃ n, s.Enters budget keys.length n x :=
    fun x => hs.starved_iff
  refine ⟨?_, ?_, ?_, ?_, hstarved, ?_, ?_⟩
  · exact fun t ht x => (hmember ht).reply
  · intro n t u x y ht hu hreply hagain
    have hb := (hsettled ht).reply.mp hreply
    have hcomes := (hsettled ht).cycle
    rw [((getElem?_starts_next ht).mp hu).2] at hcomes
    cases hcomes with
    | on hnone => cases hb.symm.trans hnone
    | fed _ _ hfed =>
      rw [hfed.step] at hagain
      cases hagain
  · intro t ht m
    have ht : t.Settled := hmember ht
    refine ⟨ht.released, fun w x hmode hw hx => ⟨fun hd => ?_, fun hd => ?_⟩⟩
    · rw [step_of_after_eq hmode hw hd (if_pos hx) rfl, ht.flow_skipKeyDown]
      rfl
    · rw [step_of_after_eq hmode hw hd (if_pos hx) rfl, ht.flow_skipKeyUp]
      rfl
  · intro j n x key he hkey hle hn
    rcases hs.wait_cases he with ⟨hj, -⟩ | ⟨key', hkey', hoffered⟩
    · cases (List.getElem?_eq_none (Nat.le_of_eq hj)).symm.trans hkey
    · cases hkey.symm.trans hkey'
      rw [if_pos hle] at hoffered
      obtain ⟨u, hu, hfed⟩ := hoffered hn
      refine ⟨u, hu, hfed.mode, ?_, ?_⟩
      · rw [hfed.step]
      · rw [hfed.step]
        show (u.console.machine.registers.put x key).get x = _
        rw [Registers.get_eq hfed.register_lt, Registers.cell_put _ _ hfed.register_lt,
          if_pos rfl]
  · intro n x he
    rw [(hstarved x).mpr ⟨n, he⟩]
    rfl
  · intro j n x key he hkey hbad
    rcases hs.wait_cases he with ⟨hj, -⟩ | ⟨key', hkey', hoffered⟩
    · cases (List.getElem?_eq_none (Nat.le_of_eq hj)).symm.trans hkey
    · cases hkey.symm.trans hkey'
      rw [if_neg hbad] at hoffered
      rw [hoffered.1]
      exact ⟨rfl, hoffered.2⟩

/-- `F30A` with key 7, with no key and with key `10` scripted, and `E09E` with every key up. -/
theorem script_feeds_waits_in_order_seven :
    let console (rom : Array UInt8) := (Console.load rom (.fresh (WordCycle.ofList []))).2
    let waiting := start (console #[0xF3, 0x0A])
    let asking := start (console #[0xE0, 0x9E]) []
    (waiting [7]).Enters 2 0 0 3 ∧
    (∃ u, ((waiting [7]).starts 2)[1]? = some u ∧ u.console.machine.mode = .awaitingKey 3 ∧
      (Console.stepMachine u.console).1 = .ok .running ∧
      (Console.stepMachine u.console).1 ≠ .ok (.awaitingKey 3) ∧
      (Console.stepMachine u.console).2.machine.registers.get 3 = .ok 7) ∧
    ((waiting []).run 1).2 = .starved 3 ∧ ((waiting []).run 1).2.fault? = none ∧
    ((waiting [0x10]).run 1).2.fault? = some (.noSuchKey 0x10) ∧
    ((waiting [0x10]).run 1).1.console.machine.mode = .awaitingKey 3 ∧
    (Keypad.isDown asking.console.machine.keypad 0).1 = false ∧
    (Console.stepMachine asking.console).2.machine.pc = 0x202 := by
  intro console waiting asking
  have hwait : (console #[0xF3, 0x0A]).machine.performed? = some (.awaitKey 3) :=
    (Console.at_of_load _ (by decide)).performed (by decide) rfl rfl
  have hasking : asking.console.machine.fetch = .ok 0xE09E :=
    (Console.at_of_load _ (by decide)).fetch (by decide)
  have hb : ∀ keys, (waiting keys).begins? = some 3 := fun keys => begins?_eq_some.mpr hwait
  have henters : ∀ keys budget, (waiting keys).Enters (budget + 1) 0 0 3 :=
    fun keys budget => ⟨waiting keys, rfl, hb keys, rfl⟩
  have hreply : (Console.stepMachine (waiting [7]).console).1 = .ok (.awaitingKey 3) :=
    congrArg Prod.fst (Console.stepMachine_of_performed (c := (waiting [7]).console) hwait)
  obtain ⟨-, apart, -, feeds, -, -, -⟩ :=
    script_feeds_waits_in_order (WordCycle.ofList []) #[0xF3, 0x0A] [7] 2
  obtain ⟨-, -, -, -, starves, halts, -⟩ :=
    script_feeds_waits_in_order (WordCycle.ofList []) #[0xF3, 0x0A] [] 1
  obtain ⟨-, -, -, -, -, -, refuses⟩ :=
    script_feeds_waits_in_order (WordCycle.ofList []) #[0xF3, 0x0A] [0x10] 1
  obtain ⟨-, -, up, -, -, -, -⟩ :=
    script_feeds_waits_in_order (WordCycle.ofList []) #[0xE0, 0x9E] [] 1
  obtain ⟨u, hu, hmode, hresumed, hkey⟩ := feeds 0 0 3 7 (henters _ _) rfl (by decide) (by decide)
  obtain ⟨hfault, hstill⟩ := refuses 0 0 3 0x10 (henters _ _) rfl (by decide)
  obtain ⟨hup, hskip⟩ := up asking (mem_starts_succ asking 0)
  have hzero : asking.console.machine.v 0 ≤ 0xF := by decide
  have hstep := (hskip 0xE09E 0 rfl hasking hzero).1 rfl
  refine ⟨henters _ _, ⟨u, hu, hmode, hresumed, apart 0 _ u 3 3 rfl hu hreply, hkey⟩,
    (starves 3).mpr ⟨0, henters _ _⟩, halts 0 3 (henters _ _), hfault, ?_, hup 0,
    congrArg (·.2.machine.pc) hstep⟩
  -- The kernel should compare the two runs as they stand and not compute them.
  with_reducible exact hstill

end Session

end Chip8
