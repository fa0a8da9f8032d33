import Chip8.Launch
import Chip8.Proofs.Cycles

/-!
# Frames

Only drawing instructions change the screen, and each of them raises the redraw flag. A session
takes a frame in every cycle that it completes, and a cycle that it does not complete draws
nothing: at the end of each cycle the frame it kept is the screen, or the screen is still blank.
-/

namespace Chip8

/-! ## Drawing -/

namespace Machine

variable {κ ρ : Type}

section
variable {m : Machine κ ρ} {i : Instruction}

theorem screenAfter_of_not_drawing (h : i.isDrawing = false) :
    m.screenAfter i = m.screen := by
  cases i with
  | clear | draw => cases h
  | _ => rfl

theorem modeAfter_of_drawing (h : i.isDrawing) : m.modeAfter i = m.mode := by
  cases i with
  | awaitKey => cases h
  | _ => rfl

end

variable [Keypad κ] [ByteSource ρ] {m : Machine κ ρ}

/-- A step performs an instruction that draws. -/
def draws (m : Machine κ ρ) : Bool := m.performed?.any Instruction.isDrawing

/-- Drawing instructions raise the redraw flag and go on running. -/
theorem step_of_draws (h : m.draws = true) :
    (step m).1 = .ok .running ∧ (step m).2.redraw = true := by
  obtain ⟨i, hp, hi⟩ := (Option.any_eq_true _ _).mp h
  obtain ⟨-, -, hs⟩ := step_of_performed hp
  have hm : m.mode = .running := by
    cases hm : m.mode with
    | running => rfl
    | awaitingKey x => cases hp.symm.trans (performed?_of_awaiting hm)
  rw [hs]
  refine ⟨?_, ?_⟩
  · show Except.ok (m.modeAfter i) = _
    rw [modeAfter_of_drawing hi, hm]
  · show (i.isDrawing || m.redraw) = true
    rw [hi, Bool.true_or]

/-- Nothing else changes the screen or the flag. -/
theorem step_of_not_draws (h : m.draws = false) :
    (step m).2.redraw = m.redraw ∧ (step m).2.screen = m.screen := by
  cases hm : m.mode with
  | awaitingKey x =>
    obtain ⟨registers, pc, mode, keypad, hs, -⟩ := step_awaiting_frame hm
    rw [hs]
    exact ⟨rfl, rfl⟩
  | running =>
    rcases step_cases hm with ⟨-, e, hs⟩ | ⟨i, hp, -, -, hs⟩
    · rw [hs]
      exact ⟨rfl, rfl⟩
    · have hi : i.isDrawing = false := (Option.any_eq_false _ _).mp h i hp
      rw [hs]
      refine ⟨?_, screenAfter_of_not_drawing hi⟩
      show (i.isDrawing || m.redraw) = m.redraw
      rw [hi, Bool.false_or]

end Machine

/-! ## Cycles -/

namespace Session

variable {ρ : Type}

/-- No frame is due, and the frame that was kept is the screen, or nothing was drawn and the screen
is blank. -/
structure InStep (s : Session ρ) (drew : Bool) : Prop where
  redraw : s.console.machine.redraw = false
  frame : s.frame = if drew then some s.console.machine.screen else none
  blank : drew = false → s.console.machine.screen = .blank

variable {s : Session ρ} {drew : Bool}

theorem InStep.eq_screen (h : s.InStep drew) {frame : Screen} (hf : s.frame = some frame) :
    frame = s.console.machine.screen := by
  cases drew with
  | true => exact Option.some.inj (hf.symm.trans h.frame)
  | false => cases hf.symm.trans h.frame

theorem InStep.frame_eq_none (h : s.InStep drew) : s.frame = none ↔ drew = false := by
  rw [h.frame]
  cases drew with
  | true => exact ⟨fun e => (nomatch e), fun e => (nomatch e)⟩
  | false => exact ⟨fun _ => rfl, fun _ => rfl⟩

theorem finishCycle_due (h : s.console.machine.redraw = true) : (finishCycle s).InStep true := by
  obtain ⟨delay, sound, counter, hp⟩ := Console.paceTimers_frame s.console
  constructor
  · rfl
  · simp [finishCycle, hp, Console.takeFrame, Machine.takeRedraw, h]
  · exact fun e => nomatch e

theorem InStep.finishCycle (h : s.InStep drew) : (finishCycle s).InStep drew := by
  obtain ⟨delay, sound, counter, hp⟩ := Console.paceTimers_frame s.console
  constructor
  · rfl
  · simp [Session.finishCycle, hp, Console.takeFrame, Machine.takeRedraw, h.redraw, h.frame]
  · simp only [Session.finishCycle, hp]
    exact h.blank

variable [ByteSource ρ]

theorem InStep.stepped (h : s.InStep drew) (hd : s.console.machine.draws = false) :
    s.stepped.InStep drew := by
  obtain ⟨hredraw, hscreen⟩ := Machine.step_of_not_draws hd
  constructor
  · exact hredraw.trans h.redraw
  · show s.frame = if drew then some (Machine.step s.console.machine).2.screen else none
    rw [hscreen]
    exact h.frame
  · intro e
    exact hscreen.trans (h.blank e)

/-- However a cycle goes, the frame is the screen behind it. -/
theorem InStep.cycle (h : s.InStep drew) :
    s.cycle.1.InStep (drew || s.console.machine.draws) := by
  cases hd : s.console.machine.draws with
  | true =>
    obtain ⟨hreply, hredraw⟩ := Machine.step_of_draws hd
    rw [cycle_running hreply, Bool.or_true]
    exact finishCycle_due hredraw
  | false =>
    have ht := h.stepped hd
    rw [Bool.or_false]
    rcases hr : (Console.stepMachine s.console).1 with e | mode
    · rw [cycle_faulted hr]
      exact ht
    cases mode with
    | running =>
      rw [cycle_running hr]
      exact ht.finishCycle
    | awaitingKey x =>
      rcases hkeys : s.keys with _ | ⟨key, keys⟩
      · rw [cycle_starved hr hkeys]
        exact ht
      by_cases hkey : key ≤ 0xF
      · rw [cycle_fed hr hkeys hkey]
        exact InStep.finishCycle { ht with }
      · rw [cycle_refused hr hkeys hkey]
        exact { ht with }

/-! ## Runs -/

theorem InStep.run (h : s.InStep drew) (budget : Nat) :
    (s.run budget).1.InStep (drew || (s.performed budget).any Instruction.isDrawing) := by
  induction budget generalizing s drew with
  | zero =>
    rw [performed, List.any_nil, Bool.or_false]
    exact h
  | succ budget ih =>
    have hc := h.cycle
    have hdraws : s.console.machine.performed?.toList.any Instruction.isDrawing =
        s.console.machine.draws := by
      rw [Machine.draws]
      cases s.console.machine.performed? with
      | none => rfl
      | some i => exact Bool.or_false _
    rw [Session.run, performed, List.any_append, hdraws, ← Bool.or_assoc]
    rcases hs : s.cycle with ⟨t, _ | ending⟩
    · rw [hs] at hc
      exact ih hc
    · rw [hs] at hc
      rw [List.any_nil, Bool.or_false]
      exact hc

omit [ByteSource ρ] in
theorem inStep_start {rom : Array UInt8} {source : ρ} {console : Console ρ}
    (h : Console.load rom (.fresh source) = (.ok (), console)) (keys : List UInt8) :
    (start console keys).InStep false := by
  obtain ⟨machine, hl, rfl⟩ := Console.load_ok_iff.mp h
  obtain ⟨-, rfl⟩ := Machine.load_eq_ok_iff.mp hl
  exact ⟨rfl, rfl, fun _ => rfl⟩

end Session

/-! ## Launching -/

namespace Launch

open CommandLine (Settings)

theorem output_of_load {settings : Settings} {rom : Array UInt8} {seed : UInt64}
    {console : Console KeyStream}
    (h : Console.load rom (.fresh (KeyStream.ofSeed (settings.seed.getD seed))) =
      (.ok (), console)) :
    (run settings (.ok rom) seed).output =
      (((Session.start console settings.keys).run settings.cycles).1.frame.map
        fun s => s.picture .standard).getD "" := by
  rw [run, prepare, h]
  rfl

/-- For a ROM that fits, any seed, budget and keys: however the run ends, a last frame is the final
screen, there is none only if nothing was drawn, and what is printed is the final screen or
nothing. -/
theorem last_frame_is_final_screen (rom : Array UInt8) (hrom : rom.size ≤ programCapacity)
    (seed : UInt64) (budget : Nat) (keys : List UInt8) :
    ∃ console, Console.load rom (Console.fresh (KeyStream.ofSeed seed)) = (.ok (), console) ∧
      let s := Session.start console keys
      let final := (s.run budget).1
      (∀ frame, final.frame = some frame → frame = final.console.machine.screen) ∧
      (final.frame = none ↔ ∀ i ∈ s.performed budget, ¬i.isDrawing) ∧
      (final.frame = none → final.console.machine.screen = .blank) ∧
      ∀ (settings : Settings) (otherSeed : UInt64), settings.cycles = budget →
        settings.keys = keys → settings.seed.getD otherSeed = seed →
        (run settings (.ok rom) otherSeed).output =
          if ∀ i ∈ s.performed budget, ¬i.isDrawing then ""
          else final.console.machine.screen.picture .standard := by
  obtain ⟨machine, hl⟩ : ∃ machine,
      (Console.fresh (KeyStream.ofSeed seed)).machine.load rom = .ok machine :=
    ⟨_, Machine.load_eq_ok_iff.mpr ⟨hrom, rfl⟩⟩
  have hload := Console.load_ok hl
  refine ⟨_, hload, ?_⟩
  intro s final
  have hend : final.InStep _ := (Session.inStep_start hload keys).run budget
  rw [Bool.false_or] at hend
  have hnone : final.frame = none ↔ ∀ i ∈ s.performed budget, ¬i.isDrawing :=
    hend.frame_eq_none.trans List.any_eq_false
  refine ⟨fun frame hf => hend.eq_screen hf, hnone, ?_, ?_⟩
  · intro hf
    exact hend.blank (hend.frame_eq_none.mp hf)
  · rintro settings otherSeed rfl rfl rfl
    rw [output_of_load hload]
    show (final.frame.map _).getD "" = _
    cases hf : final.frame with
    | none =>
      rw [if_pos (hnone.mp hf)]
      rfl
    | some frame =>
      have hdrew : ¬∀ i ∈ s.performed settings.cycles, ¬i.isDrawing := by
        intro h
        cases hf.symm.trans (hnone.mpr h)
      rw [if_neg hdrew, hend.eq_screen hf]
      rfl

/-- A ROM that clears the screen leaves a blank frame, which is one and is printed. -/
theorem last_frame_is_final_screen_cleared :
    (#[0x00, 0xE0] : Array UInt8).size ≤ programCapacity ∧
    ∃ console, Console.load #[0x00, 0xE0] (.fresh (KeyStream.ofSeed 7)) = (.ok (), console) ∧
      let final := ((Session.start console []).run 1).1
      final.frame = some final.console.machine.screen ∧
      (run ⟨"clear.ch8", 1, some 7, [], true⟩ (.ok #[0x00, 0xE0]) 0).output =
        final.console.machine.screen.picture .standard := by
  refine ⟨by decide, ?_⟩
  obtain ⟨console, hload, hframe, hnone, -, hprinted⟩ :=
    last_frame_is_final_screen #[0x00, 0xE0] (by decide) 7 1 []
  refine ⟨console, hload, ?_⟩
  have hat : console.machine.At #[0x00, 0xE0] 0 := by
    have hbegin : (Console.load #[0x00, 0xE0] (.fresh (KeyStream.ofSeed 7))).2.machine.At _ 0 :=
      Console.at_of_load _ (by decide)
    rwa [hload] at hbegin
  have hclear : console.machine.performed? = some .clear := hat.performed (by decide) rfl rfl
  have hmem : .clear ∈ (Session.start console []).performed 1 :=
    List.mem_append_left _ (Option.mem_toList.mpr hclear)
  have hdrew : ¬∀ i ∈ (Session.start console []).performed 1, ¬i.isDrawing :=
    fun h => absurd rfl (h .clear hmem)
  intro final
  refine ⟨?_, ?_⟩
  · cases hend : final.frame with
    | none => exact absurd (hnone.mp hend) hdrew
    | some frame => rw [hframe frame hend]
  · rw [hprinted ⟨"clear.ch8", 1, some 7, [], true⟩ 0 rfl rfl rfl, if_neg hdrew]

end Launch

end Chip8
