import Chip8.Proofs.Invariant
import Chip8.Proofs.Reset

/-!
# Failures change nothing

An opcode that faults leaves the whole machine as it was, and so does a step that fails while the
machine is running. On a console that was reached by calls every failing call leaves the whole
console as it was: a poll for a key cannot fail there, nor can a reset.
-/

namespace Chip8

open Chip8.Action (runCalls)

variable {κ ρ : Type}

/-! ## Machines -/

namespace Machine

variable [Keypad κ] [ByteSource ρ] {m t : Machine κ ρ} {e : Fault}

theorem eq_of_execute_error {w : Opcode} (h : execute w m = (.error e, t)) : t = m :=
  (execute_error_iff.mp h).1

theorem eq_of_step_error (hm : m.mode = .running) (h : step m = (.error e, t)) : t = m := by
  rcases step_cases hm with ⟨-, _, hs⟩ | ⟨i, -, -, -, hs⟩
  · rw [hs] at h
    cases h
    rfl
  · rw [hs] at h
    cases h

theorem Intact.eq_of_step_error {m t : Machine HexPad ρ} (h : m.Intact)
    (hs : Machine.step m = (.error e, t)) : t = m := by
  cases hm : m.mode with
  | running => exact Machine.eq_of_step_error hm hs
  | awaitingKey x =>
    obtain ⟨mode, hok⟩ := h.step_awaiting_ok hm
    rw [hs] at hok
    cases hok

end Machine

/-! ## Consoles -/

namespace Console

variable [ByteSource ρ] {c d : Console ρ} {e : Fault}

theorem eq_of_act_error (hc : c.machine.Intact) (hrom : c.rom.size ≤ programCapacity)
    {call : Call} (h : act call c = (.error e, d)) : d = c := by
  cases call with
  | load rom =>
    rw [act_load] at h
    exact Action.change_error (Action.eq_error_of_map h)
  | step =>
    rw [act_step] at h
    have hs : stepMachine c = (.error e, d) := Action.eq_error_of_map (x := stepMachine c) h
    have hr : (Machine.step c.machine).1 = .error e := congrArg Prod.fst hs
    have hd : { c with machine := (Machine.step c.machine).2 } = d := congrArg Prod.snd hs
    have hm : (Machine.step c.machine).2 = c.machine := hc.eq_of_step_error (Prod.ext hr rfl)
    rw [← hd, hm]
  | paceTimers =>
    rw [act_paceTimers] at h
    cases h
  | press key =>
    rw [act_press] at h
    exact Action.change_error (Action.eq_error_of_map h)
  | release key =>
    rw [act_release] at h
    exact Action.change_error (Action.eq_error_of_map h)
  | takeFrame =>
    rw [act_takeFrame] at h
    cases h
  | reset =>
    rw [act_reset, reset_eq hrom] at h
    cases h

end Console

/-! ## All failures -/

/-- A reset after a refused ROM starts the one before it, unless one that fits was loaded in
between. -/
theorem unchanged_of_failure [Keypad κ] [ByteSource ρ] :
    (∀ (m t : Machine κ ρ) (w : Opcode) (e : Fault),
      Machine.execute w m = (.error e, t) → t = m) ∧
    (∀ (m t : Machine κ ρ) (e : Fault),
      m.mode = .running → Machine.step m = (.error e, t) → t = m) ∧
    (∀ (m t : Machine κ ρ) (program : Array UInt8) (e : Fault),
      Action.change (Machine.load · program) m = (.error e, t) → t = m) ∧
    ∀ (source : ρ) (history : List Console.Call),
      let c := runCalls Console.act (Console.fresh source) history
      (∀ (call : Console.Call) (e : Fault) (d : Console ρ),
        Console.act call c = (.error e, d) → d = c) ∧
      ∀ (rom : Array UInt8) (e : Fault) (d : Console ρ), Console.load rom c = (.error e, d) →
        d = c ∧ ∀ later : List Console.Call, (∀ call ∈ later, call.rom? = none) →
          ∃ t, Console.reset (runCalls Console.act d later) = (.ok (), t) ∧ t.rom = c.rom ∧
            Memory.fresh.load c.rom = .ok t.machine.memory := by
  refine ⟨?_, ?_, ?_, ?_⟩
  · exact fun m t w e h => Machine.eq_of_execute_error h
  · exact fun m t e hm h => Machine.eq_of_step_error hm h
  · exact fun m t program e h => Action.change_error h
  intro source history c
  have hc : c.machine.Intact := Machine.intact_of_console source history
  have hrom : c.rom.size ≤ programCapacity :=
    Console.runCalls_rom_fits (Nat.zero_le _) history
  refine ⟨fun call e d h => Console.eq_of_act_error hc hrom h, ?_⟩
  intro rom e d h
  obtain rfl := Action.change_error h
  refine ⟨rfl, fun later hlater => ?_⟩
  have hkept : (runCalls Console.act c later).rom = c.rom := by
    rw [Console.runCalls_rom, List.filterMap_eq_nil_iff.mpr hlater]
    rfl
  refine ⟨_, Console.reset_eq (hkept ▸ hrom), hkept, ?_⟩
  rw [Memory.load_eq _ hrom, ← hkept]
  rfl

/-- A store into the font, a jump behind memory, a ROM of one byte too many and a key `10`. -/
theorem unchanged_of_failure_on_fresh :
    let m := Machine.fresh HexPad.idle (WordCycle.ofList [])
    let far : Machine HexPad WordCycle := { m with pc := 0x1000 }
    let large := Array.replicate 3585 (0 : UInt8)
    let c := runCalls Console.act (Console.fresh (WordCycle.ofList [])) [.load #[0x00, 0xE0]]
    (Machine.execute 0xF055 m).1 = .error (.addressOutOfRange 0) ∧
    (Machine.execute 0xF055 m).2 = m ∧
    (Machine.step far).1 = .error (.addressOutOfRange 0x1000) ∧ (Machine.step far).2 = far ∧
    (Action.change (Machine.load · large) m).2 = m ∧
    (Console.act (.press 0x10) c).2 = c ∧ (Console.load large c).2 = c ∧
    ∃ t, Console.reset (runCalls Console.act (Console.load large c).2 [.step, .load large]) =
      (.ok (), t) ∧ t.rom = c.rom := by
  intro m far large c
  have hlarge : programCapacity < large.size := by
    rw [Array.size_replicate]
    decide
  clear_value large
  have hrefused := Machine.load_eq_error (m := m) hlarge
  have hmachine : (Action.change (Machine.load · large) m).1 = .error _ :=
    congrArg Prod.fst (Action.change_apply_error hrefused)
  have hconsole : (Console.load large c).1 = .error _ :=
    congrArg Prod.fst (Console.load_error (Machine.load_eq_error hlarge))
  have hstore : (Machine.execute 0xF055 m).1 = .error (.addressOutOfRange 0) := rfl
  have hstep : (Machine.step far).1 = .error (.addressOutOfRange 0x1000) := rfl
  have hpress : (Console.act (.press 0x10) c).1 = .error (.noSuchKey 0x10) := rfl
  obtain ⟨execution, stepping, loading, calls⟩ :=
    unchanged_of_failure (κ := HexPad) (ρ := WordCycle)
  obtain ⟨call, reload⟩ := calls (WordCycle.ofList []) [.load #[0x00, 0xE0]]
  refine ⟨hstore, ?_, hstep, ?_, ?_, ?_, ?_, ?_⟩
  · exact execution m _ 0xF055 _ (Prod.ext hstore rfl)
  · exact stepping far _ _ rfl (Prod.ext hstep rfl)
  · exact loading m _ large _ (Prod.ext hmachine rfl)
  · exact call (.press 0x10) _ _ (Prod.ext hpress rfl)
  · exact (reload large _ _ (Prod.ext hconsole rfl)).1
  · have hnone : ∀ later ∈ [Console.Call.step, .load large], later.rom? = none := by
      simp [Console.Call.rom?, Nat.not_le.mpr hlarge]
    obtain ⟨t, ht, hrom, -⟩ := (reload large _ _ (Prod.ext hconsole rfl)).2 _ hnone
    exact ⟨t, ht, hrom⟩

end Chip8
