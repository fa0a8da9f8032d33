import Chip8.Proofs.Feeding

/-!
# Budgets

A cycle reads the console and the keys of a session; the frame that was kept and the number of
cycles that were completed are handed on (`behind`). Running with one budget and then with another
is therefore running with their sum, if the first run spends its budget, and a run that ends before
is not changed by a larger one. Nothing here depends on where the cut falls: a press that waits to
be delivered is part of the console.
-/

namespace Chip8.Session

variable {ρ : Type}

/-- The session if `frame` was kept and `elapsed` cycles were completed before it started. -/
def behind (s : Session ρ) (frame : Option Screen) (elapsed : Nat) : Session ρ :=
  { s with frame := s.frame <|> frame, elapsed := elapsed + s.elapsed }

theorem start_behind (s : Session ρ) : (start s.console s.keys).behind s.frame s.elapsed = s := by
  rw [behind, start, Nat.add_zero]
  rfl

theorem finishCycle_behind (s : Session ρ) (frame : Option Screen) (elapsed : Nat) :
    finishCycle (s.behind frame elapsed) = (finishCycle s).behind frame elapsed := by
  rcases h : s.console.paceTimers.takeFrame with ⟨_ | taken, console⟩
  · simp only [finishCycle, behind, h, Nat.add_assoc]
    rfl
  · simp only [finishCycle, behind, h, Nat.add_assoc]
    rfl

variable [ByteSource ρ] {s t : Session ρ} {n m : Nat}

/-! ## Cycles -/

/-- Where a cycle leads the console and the keys, and whether it ends the run, does not depend on
the frame or on the cycles before it. -/
theorem cycle_cases (console : Console ρ) (keys : List UInt8) : ∃ console' keys',
    (∀ frame elapsed, cycle ⟨console, keys, frame, elapsed⟩ =
      (finishCycle ⟨console', keys', frame, elapsed⟩, none)) ∨
    ∃ ending, ending ≠ .spent ∧ ∀ frame elapsed, cycle ⟨console, keys, frame, elapsed⟩ =
      (⟨console', keys', frame, elapsed⟩, some ending) := by
  let stepped := (Console.stepMachine console).2
  rcases hr : (Console.stepMachine console).1 with e | mode
  · refine ⟨stepped, keys, .inr ⟨.faulted e, Ending.noConfusion, fun frame elapsed => ?_⟩⟩
    exact cycle_faulted (s := ⟨console, keys, frame, elapsed⟩) hr
  cases mode with
  | running =>
    refine ⟨stepped, keys, .inl fun frame elapsed => ?_⟩
    exact cycle_running (s := ⟨console, keys, frame, elapsed⟩) hr
  | awaitingKey x =>
    rcases keys with _ | ⟨key, keys⟩
    · refine ⟨stepped, [], .inr ⟨.starved x, Ending.noConfusion, fun frame elapsed => ?_⟩⟩
      exact cycle_starved (s := ⟨console, [], frame, elapsed⟩) hr rfl
    by_cases hkey : key ≤ 0xF
    · refine ⟨stepped.withKeypad (stepped.machine.keypad.tapped key), keys,
        .inl fun frame elapsed => ?_⟩
      exact cycle_fed (s := ⟨console, key :: keys, frame, elapsed⟩) hr rfl hkey
    · refine ⟨stepped, keys, .inr ⟨.refused (.noSuchKey key), Ending.noConfusion,
        fun frame elapsed => ?_⟩⟩
      exact cycle_refused (s := ⟨console, key :: keys, frame, elapsed⟩) hr rfl hkey

theorem cycle_behind (s : Session ρ) (frame : Option Screen) (elapsed : Nat) :
    (s.behind frame elapsed).cycle = (s.cycle.1.behind frame elapsed, s.cycle.2) := by
  obtain ⟨console, keys, h | ⟨ending, -, h⟩⟩ := cycle_cases s.console s.keys
  · have hs : s.cycle = _ := h s.frame s.elapsed
    have hbehind : (s.behind frame elapsed).cycle = _ := h _ _
    rw [hs, hbehind, ← finishCycle_behind]
    rfl
  · have hs : s.cycle = _ := h s.frame s.elapsed
    have hbehind : (s.behind frame elapsed).cycle = _ := h _ _
    rw [hs, hbehind]
    rfl

/-- No cycle ends a run for want of cycles. -/
theorem ne_spent_of_cycle {ending : Ending} (h : s.cycle = (t, some ending)) :
    ending ≠ .spent := by
  obtain ⟨console, keys, hs | ⟨other, hne, hs⟩⟩ := cycle_cases s.console s.keys
  · cases h.symm.trans (hs s.frame s.elapsed)
  · cases h.symm.trans (hs s.frame s.elapsed)
    exact hne

theorem elapsed_of_cycle (h : s.cycle = (t, none)) : t.elapsed = s.elapsed + 1 := by
  obtain ⟨console, keys, hs | ⟨ending, -, hs⟩⟩ := cycle_cases s.console s.keys
  · cases h.symm.trans (hs s.frame s.elapsed)
    rfl
  · cases h.symm.trans (hs s.frame s.elapsed)

/-! ## Runs -/

theorem run_behind (s : Session ρ) (frame : Option Screen) (elapsed n : Nat) :
    (s.behind frame elapsed).run n = ((s.run n).1.behind frame elapsed, (s.run n).2) := by
  induction n generalizing s with
  | zero => rfl
  | succ n ih =>
    rw [run, run, cycle_behind]
    rcases s.cycle with ⟨t, _ | ending⟩
    · exact ih t
    · rfl

/-- The frame that a run keeps is its own if it took one. -/
theorem run_eq_start_run (s : Session ρ) (n : Nat) :
    s.run n = (((start s.console s.keys).run n).1.behind s.frame s.elapsed,
      ((start s.console s.keys).run n).2) := by
  rw [← run_behind, start_behind]

theorem cycle_of_spent (h : (s.run (n + 1)).2 = .spent) :
    ∃ t, s.cycle = (t, none) ∧ s.run (n + 1) = t.run n := by
  rw [run] at h ⊢
  rcases hc : s.cycle with ⟨t, _ | ending⟩
  · exact ⟨t, rfl, rfl⟩
  · rw [hc] at h
    exact absurd h (ne_spent_of_cycle hc)

theorem elapsed_of_spent (h : (s.run n).2 = .spent) : (s.run n).1.elapsed = s.elapsed + n := by
  induction n generalizing s with
  | zero => rfl
  | succ n ih =>
    obtain ⟨t, hc, hrun⟩ := cycle_of_spent h
    rw [hrun] at h ⊢
    rw [ih h, elapsed_of_cycle hc, Nat.add_assoc, Nat.add_comm 1]

/-- A run that spends its budget goes on with what a larger budget has left. -/
theorem run_add_of_spent (h : (s.run n).2 = .spent) : s.run (n + m) = (s.run n).1.run m := by
  induction n generalizing s with
  | zero => rw [Nat.zero_add, run]
  | succ n ih =>
    obtain ⟨t, hc, hrun⟩ := cycle_of_spent h
    rw [hrun] at h ⊢
    rw [Nat.add_right_comm, run, hc]
    exact ih h

/-- A run that ends before its budget is spent ends so with any larger one. -/
theorem run_add_of_ne_spent (h : (s.run n).2 ≠ .spent) : s.run (n + m) = s.run n := by
  induction n generalizing s with
  | zero => exact absurd rfl h
  | succ n ih =>
    rw [Nat.add_right_comm, run, run]
    rw [run] at h
    rcases hc : s.cycle with ⟨t, _ | ending⟩
    · rw [hc] at h
      exact ih h
    · rfl

/-! ## The states of a run -/

/-- A larger budget goes through the states of a smaller one. -/
theorem starts_prefix (s : Session ρ) (n m : Nat) : s.starts n <+: s.starts (n + m) := by
  induction n generalizing s with
  | zero => exact List.nil_prefix
  | succ n ih =>
    rw [Nat.add_right_comm, starts, starts, List.cons_prefix_cons]
    refine ⟨rfl, ?_⟩
    rcases s.cycle with ⟨t, _ | ending⟩
    · exact ih t
    · exact List.nil_prefix

theorem getElem?_starts_of_spent (h : (s.run n).2 = .spent) (hm : 0 < m) :
    (s.starts (n + m))[n]? = some (s.run n).1 := by
  induction n generalizing s with
  | zero =>
    obtain ⟨m, rfl⟩ := Nat.exists_eq_succ_of_ne_zero (Nat.pos_iff_ne_zero.mp hm)
    rw [Nat.zero_add]
    rfl
  | succ n ih =>
    obtain ⟨t, hc, hrun⟩ := cycle_of_spent h
    rw [hrun] at h ⊢
    rw [Nat.add_right_comm, getElem?_starts_succ]
    exact ⟨t, hc, ih h⟩

/-! ## Two runs as one -/

/-- On any console, with any keys: a run with the budget `n + m` is a run with `n`, followed by one
with `m` from the console and the keys that the first left, if the first spent its budget; its frame
is that of the second if there is one, and otherwise that of the first. If the first ended before,
it is the whole run. Either way the larger run begins with the cycles of the smaller one. -/
theorem budgets_compose (console : Console ρ) (keys : List UInt8) (n m : Nat) :
    let s := start console keys
    let first := s.run n
    let second := (start first.1.console first.1.keys).run m
    let whole := s.run (n + m)
    (first.2 = .spent →
      whole.1.console = second.1.console ∧ whole.1.keys = second.1.keys ∧ whole.2 = second.2 ∧
      whole.1.frame = (second.1.frame <|> first.1.frame) ∧
      first.1.elapsed = n ∧ whole.1.elapsed = n + second.1.elapsed ∧
      (0 < m → (s.starts (n + m))[n]? = some first.1)) ∧
    (first.2 ≠ .spent → whole = first) ∧
    s.starts n <+: s.starts (n + m) := by
  intro s first second whole
  refine ⟨fun hspent => ?_, run_add_of_ne_spent, starts_prefix s n m⟩
  have helapsed : first.1.elapsed = n := (elapsed_of_spent hspent).trans (Nat.zero_add n)
  have hwhole : whole = (second.1.behind first.1.frame first.1.elapsed, second.2) :=
    (run_add_of_spent hspent).trans (run_eq_start_run first.1 m)
  rw [hwhole, helapsed]
  exact ⟨rfl, rfl, rfl, rfl, rfl, rfl, getElem?_starts_of_spent hspent⟩

/-- `F30A` with key 7, cut between the wait and the delivery of the key, and with no key. -/
theorem budgets_compose_in_wait :
    let console := (Console.load #[0xF3, 0x0A] (.fresh (WordCycle.ofList []))).2
    ∃ first second whole : Session WordCycle × Ending,
      (start console [7]).run 1 = first ∧
      (start first.1.console first.1.keys).run 1 = second ∧
      (start console [7]).run (1 + 1) = whole ∧
      first.2 = .spent ∧ first.1.console.machine.mode = .awaitingKey 3 ∧
      first.1.console.machine.keypad.pending = some 7 ∧
      whole.1.console = second.1.console ∧ whole.2 = second.2 ∧
      0 < 1 ∧ ((start console [7]).starts (1 + 1))[1]? = some first.1 ∧
      ((start console []).run 1).2 ≠ .spent ∧
      (start console []).run (1 + 5) = (start console []).run 1 := by
  intro console
  have hwait : console.machine.performed? = some (.awaitKey 3) :=
    (Console.at_of_load _ (by decide)).performed (by decide) rfl rfl
  have hready : ∀ keys, (start console keys).Ready :=
    ready_start #[0xF3, 0x0A] (WordCycle.ofList [])
  -- No more of the console is needed, and the kernel should not compute it.
  clear_value console
  have henters : ∀ keys budget, (start console keys).Enters (budget + 1) 0 0 3 :=
    fun keys budget => ⟨start console keys, rfl, begins?_eq_some.mpr hwait, rfl⟩
  have hstarved : ((start console []).run 1).2 = .starved 3 :=
    (Settled.starved_iff (.inl (hready []))).mpr ⟨0, henters [] 0⟩
  have hmore : ((start console []).run 1).2 ≠ .spent := by
    rw [hstarved]
    exact Ending.noConfusion
  obtain ⟨u, hu, hfed⟩ : ∃ u, ((start console [7]).starts 2)[1]? = some u ∧ u.Fed 3 7 := by
    rcases Settled.wait_cases (.inl (hready [7])) (henters [7] 1) with ⟨hnone, -⟩ | ⟨key, hkey, h⟩
    · cases hnone
    · cases hkey
      exact h (by decide)
  have hfirst : (start console [7]).run 1 = (u, .spent) := by
    rw [run, ((getElem?_starts_next (n := 0) rfl).mp hu).2]
    rfl
  have hspent : ((start console [7]).run 1).2 = .spent := by rw [hfirst]
  obtain ⟨hconsole, -, hending, -, -, -, hthrough⟩ := (budgets_compose console [7] 1 1).1 hspent
  refine ⟨_, _, _, rfl, rfl, rfl, hspent, ?_, ?_, hconsole, hending, by decide,
    hthrough (by decide), hmore, (budgets_compose console [] 1 5).2.1 hmore⟩
  · rw [hfirst]
    exact hfed.mode
  · rw [hfirst]
    exact hfed.pending

end Chip8.Session
