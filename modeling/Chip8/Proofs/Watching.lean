import Chip8.Proofs.Frames
import Chip8.Proofs.Programs
import Chip8.Proofs.Reset
import Chip8.Proofs.Table

/-!
# Watching a console

A frame is due if and only if the screen was redrawn since one was last taken, even if no pixel
changed. As nothing else changes the screen, an observer that replaces its copy by every frame it
is given holds the screen each time it has asked, however rarely it asks.
-/

namespace Chip8

open Chip8.Action (runCalls runCalls_nil runCalls_cons runCalls_concat Among among_cons
  not_among_nil)

namespace Machine

variable {κ ρ : Type} [Keypad κ] [ByteSource ρ] {m : Machine κ ρ}

/-- A step draws if it executes `00E0` or `Dxyn` and does not fault. -/
theorem draws_iff : m.draws = true ↔ m.mode = .running ∧ ∃ w, m.fetch = .ok w ∧
    (w = 0x00E0 ∨ Opcode.family w = 0xD) ∧ (execute w m).1 = .ok () := by
  constructor
  · intro h
    obtain ⟨i, hp, hi⟩ := (Option.any_eq_true _ _).mp h
    obtain ⟨hm, w, hw, hd⟩ := fetch_of_performed hp
    obtain ⟨-, hf, -⟩ := step_of_performed hp
    have hok : execute w m = (.ok (), m.executed i) := execute_ok_iff.mpr ⟨i, hd, hf, rfl⟩
    refine ⟨hm, w, hw, ?_, congrArg Prod.fst hok⟩
    cases Instruction.row_of_decode? hd with
    | clear hclear => exact .inl hclear
    | draw hdraw => exact .inr hdraw
    | _ => cases hi
  · rintro ⟨hm, w, hw, hdrawing, hok⟩
    obtain ⟨i, hd, hf, -⟩ := execute_ok_iff.mp (Prod.ext hok rfl : execute w m = (.ok (), _))
    rw [draws, performed_of_fetch hm hw hd hf]
    rcases hdrawing with hclear | hdraw
    · cases (Instruction.decode?_of_row (.clear hclear)).symm.trans hd
      rfl
    · cases (Instruction.decode?_of_row (.draw hdraw)).symm.trans hd
      rfl

end Machine

namespace Console

variable {ρ : Type} [ByteSource ρ] {c : Console ρ} {call : Call}

/-! ## Redrawing -/

/-- The calls that redraw the screen: a reset, and a step that executes `00E0` or `Dxyn` and does
not fault. -/
inductive Redraws (c : Console ρ) : Call → Prop
  | reset : Redraws c .reset
  | step {w : Opcode} : c.machine.mode = .running → c.machine.fetch = .ok w →
      (w = 0x00E0 ∨ w.family = 0xD) → (Machine.execute w c.machine).1 = .ok () →
      Redraws c .step

theorem redraws_step_iff : Redraws c .step ↔ c.machine.draws = true := by
  rw [Machine.draws_iff]
  constructor
  · intro h
    cases h with
    | step hm hw hdrawing hok => exact ⟨hm, _, hw, hdrawing, hok⟩
  · rintro ⟨hm, w, hw, hdrawing, hok⟩
    exact .step hm hw hdrawing hok

/-- Redrawing makes a frame due. -/
theorem Redraws.act (h : c.Redraws call) : (act call c).2.machine.redraw = true := by
  cases h with
  | reset =>
    obtain ⟨memory, counter, hr⟩ := reset_frame c
    rw [act_reset, hr]
    rfl
  | step hm hw hdrawing hok =>
    rw [act_step]
    exact (Machine.step_of_draws (redraws_step_iff.mp (.step hm hw hdrawing hok))).2

/-- No other call changes the screen, and only taking the frame makes it no longer due. -/
theorem act_of_not_redraws (h : ¬c.Redraws call) (hcall : call ≠ .takeFrame) :
    (act call c).2.machine.redraw = c.machine.redraw ∧
      (act call c).2.machine.screen = c.machine.screen := by
  cases call with
  | load rom =>
    rw [act_load]
    cases hl : c.machine.load rom with
    | ok machine =>
      obtain ⟨-, hmachine⟩ := Machine.load_frame hl
      rw [load_ok hl, hmachine]
      exact ⟨rfl, rfl⟩
    | error e =>
      rw [load_error hl]
      exact ⟨rfl, rfl⟩
  | step =>
    rw [act_step]
    exact Machine.step_of_not_draws (Bool.eq_false_iff.mpr fun hd => h (redraws_step_iff.mpr hd))
  | paceTimers =>
    obtain ⟨delay, sound, counter, hp⟩ := paceTimers_frame c
    rw [act_paceTimers, hp]
    exact ⟨rfl, rfl⟩
  | press key =>
    obtain ⟨keypad, hp⟩ := press_frame c key
    rw [act_press, hp]
    exact ⟨rfl, rfl⟩
  | release key =>
    obtain ⟨keypad, hp⟩ := release_frame c key
    rw [act_release, hp]
    exact ⟨rfl, rfl⟩
  | takeFrame => exact absurd rfl hcall
  | reset => exact absurd .reset h

/-- Until the next frame is taken, one is due if it was, or if the screen is redrawn. -/
theorem redraw_runCalls {calls : List Call} (h : .takeFrame ∉ calls) :
    (runCalls act c calls).machine.redraw = true ↔
      c.machine.redraw = true ∨ Among act Redraws c calls := by
  induction calls generalizing c with
  | nil =>
    rw [runCalls_nil]
    exact (or_iff_left not_among_nil).symm
  | cons call calls ih =>
    obtain ⟨hne, hrest⟩ := List.ne_and_not_mem_of_not_mem_cons h
    rw [runCalls_cons, ih hrest, among_cons, ← or_assoc]
    refine or_congr_left ?_
    by_cases hr : c.Redraws call
    · exact ⟨fun _ => .inr hr, fun _ => hr.act⟩
    · rw [(act_of_not_redraws hr hne.symm).1, or_iff_left hr]

/-- No frame is due at the start and just after one was taken. -/
theorem redraw_of_taken (source : ρ) {calls : List Call}
    (h : calls = [] ∨ ∃ prior, calls = prior ++ [.takeFrame]) :
    (runCalls act (fresh source) calls).machine.redraw = false := by
  rcases h with rfl | ⟨prior, rfl⟩
  · rfl
  · rw [runCalls_concat]
    rfl

/-! ## Observers -/

/-- The copy of an observer that replaces it by the frame in a reply. -/
def seen (copy : Screen) : Except Fault Reply → Screen
  | .ok (.frame (some frame)) => frame
  | _ => copy

/-- The copy of an observer after calls. -/
def watch (copy : Screen) (c : Console ρ) : List Call → Screen
  | [] => copy
  | call :: calls => watch (seen copy (act call c).1) (act call c).2 calls

omit [ByteSource ρ] in
theorem takeFrame_eq (c : Console ρ) :
    c.takeFrame.1 = if c.machine.redraw then some c.machine.screen else none := rfl

/-- If no frame is due, the copy is the screen. -/
def Current (copy : Screen) (c : Console ρ) : Prop :=
  c.machine.redraw = false → copy = c.machine.screen

omit [ByteSource ρ] in
theorem seen_map (copy : Screen) {α : Type} (x : Except Fault α) {f : α → Reply}
    (hf : ∀ a frame, f a ≠ .frame frame) : seen copy (x.map f) = copy := by
  cases x with
  | error e => rfl
  | ok a =>
    show seen copy (.ok (f a)) = copy
    cases hfa : f a with
    | frame frame => exact absurd hfa (hf a frame)
    | _ => rfl

/-- Only taking a frame is replied to with one. -/
theorem seen_of_ne (copy : Screen) (h : call ≠ .takeFrame) : seen copy (act call c).1 = copy := by
  cases call with
  | takeFrame => exact absurd rfl h
  | load rom =>
    rw [act_load]
    exact seen_map copy _ fun _ _ => Reply.noConfusion
  | step =>
    rw [act_step]
    exact seen_map copy _ fun _ _ => Reply.noConfusion
  | paceTimers => rfl
  | press key =>
    rw [act_press]
    exact seen_map copy _ fun _ _ => Reply.noConfusion
  | release key =>
    rw [act_release]
    exact seen_map copy _ fun _ _ => Reply.noConfusion
  | reset =>
    rw [act_reset]
    exact seen_map copy _ fun _ _ => Reply.noConfusion

namespace Current

variable {copy : Screen}

/-- After asking, the copy is the screen. -/
theorem takeFrame (h : Current copy c) : seen copy (act .takeFrame c).1 = c.machine.screen := by
  rw [act_takeFrame, takeFrame_eq]
  cases hr : c.machine.redraw with
  | true => rfl
  | false => exact h hr

theorem act (h : Current copy c) (call : Call) :
    Current (seen copy (Console.act call c).1) (Console.act call c).2 := by
  by_cases hcall : call = .takeFrame
  · subst hcall
    exact fun _ => h.takeFrame
  · rw [seen_of_ne copy hcall]
    by_cases hr : c.Redraws call
    · intro hdue
      cases hdue.symm.trans hr.act
    · obtain ⟨hredraw, hscreen⟩ := act_of_not_redraws hr hcall
      intro hdue
      rw [hscreen]
      exact h (hredraw.symm.trans hdue)

theorem watch (h : Current copy c) (calls : List Call) :
    Console.watch copy c (calls ++ [.takeFrame]) =
      (runCalls Console.act c (calls ++ [.takeFrame])).machine.screen := by
  induction calls generalizing copy c with
  | nil => exact h.takeFrame
  | cons call calls ih => exact ih (h.act call)

end Current

/-- From a fresh console on, a frame is taken if and only if the screen was redrawn since one was
last asked for, and is the screen. An observer who starts with a blank copy therefore holds the
screen whenever it has just asked. -/
theorem frame_taken_iff_redrawn (source : ρ) :
    (∀ before since, (before = [] ∨ ∃ prior, before = prior ++ [.takeFrame]) →
      .takeFrame ∉ since →
      let start := runCalls act (fresh source) before
      let c := runCalls act start since
      ((∃ frame, c.takeFrame.1 = some frame) ↔
        ∃ earlier call later, since = earlier ++ call :: later ∧
          (runCalls act start earlier).Redraws call) ∧
      ∀ frame, c.takeFrame.1 = some frame → frame = c.machine.screen) ∧
    ∀ calls, watch .blank (fresh source) (calls ++ [.takeFrame]) =
      (runCalls act (fresh source) (calls ++ [.takeFrame])).machine.screen := by
  refine ⟨?_, ?_⟩
  · intro before since hbefore hsince start c
    have hdue : c.machine.redraw = true ↔ Among act Redraws start since := by
      rw [redraw_runCalls hsince, redraw_of_taken source hbefore]
      exact or_iff_right Bool.false_ne_true
    refine ⟨?_, ?_⟩
    · refine Iff.trans ?_ hdue
      rw [takeFrame_eq]
      cases c.machine.redraw with
      | true => exact ⟨fun _ => rfl, fun _ => ⟨_, rfl⟩⟩
      | false => exact ⟨fun ⟨_, h⟩ => (nomatch h), fun h => (nomatch h)⟩
    · intro frame hframe
      rw [takeFrame_eq] at hframe
      split at hframe
      · exact (Option.some.inj hframe).symm
      · cases hframe
  · exact Current.watch fun _ => rfl

/-- Clearing a blank screen changes no pixel, but is a frame for whoever watches. -/
theorem frame_taken_iff_redrawn_cleared :
    ∃ cleared : Console WordCycle,
      runCalls act (fresh (WordCycle.ofList [])) [.load #[0x00, 0xE0], .step] = cleared ∧
      cleared.takeFrame.1 = some cleared.machine.screen ∧
      watch .blank (fresh (WordCycle.ofList [])) [.load #[0x00, 0xE0], .step, .takeFrame] =
        cleared.machine.screen := by
  obtain ⟨frames, watches⟩ := frame_taken_iff_redrawn (WordCycle.ofList [])
  obtain ⟨hdue, hscreen⟩ := frames [] [.load #[0x00, 0xE0], .step] (.inl rfl) (by simp)
  have hwatch := watches [.load #[0x00, 0xE0], .step]
  have hat : (runCalls act (fresh (WordCycle.ofList [])) [.load #[0x00, 0xE0]]).machine.At
      #[0x00, 0xE0] 0 := at_of_call_load _ (by decide)
  -- The kernel should not compute the runs.
  generalize fresh (WordCycle.ofList []) = c at hdue hscreen hwatch hat ⊢
  have hclear := hat.executes (by decide) (i := .clear) rfl rfl
  have hdraws : (runCalls act c [.load #[0x00, 0xE0]]).Redraws .step :=
    .step hclear.mode hclear.fetch (.inl rfl) hclear.ok
  obtain ⟨cleared, hrun⟩ : ∃ d, runCalls act c [.load #[0x00, 0xE0], .step] = d := ⟨_, rfl⟩
  rw [runCalls_nil, hrun] at hdue hscreen
  rw [runCalls_concat, hrun, act_takeFrame] at hwatch
  refine ⟨cleared, hrun, ?_, hwatch⟩
  obtain ⟨frame, hframe⟩ := hdue.mpr ⟨[.load #[0x00, 0xE0]], .step, [], rfl, hdraws⟩
  rw [hframe, hscreen frame hframe]

end Console

end Chip8
