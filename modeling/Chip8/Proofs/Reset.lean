import Chip8.Proofs.Calls
import Chip8.Proofs.Stepping

/-!
# The remembered ROM

A console remembers the ROM it loaded last, and only one that fits. A reset therefore succeeds and
starts that ROM from a fresh machine: whatever was loaded or written before, the console is then a
fresh one that loaded this ROM, but for the keypad, which is kept, and the screen, which is still
to be shown.
-/

namespace Chip8.Console

open Chip8.Action (runCalls runCalls_cons runCalls_keeps)

variable {ρ : Type} {c : Console ρ}

/-- The console that starts its ROM again. -/
def started (c : Console ρ) : Console ρ where
  machine := { c.machine.reset with
    memory := ⟨overlay Memory.fresh.bytes programStart c.rom.toList⟩ }
  rom := c.rom
  counter := 0

theorem reset_eq (h : c.rom.size ≤ programCapacity) : Console.reset c = (.ok (), c.started) := by
  have hload : c.machine.reset.load c.rom =
      .ok { c.machine.reset with
        memory := ⟨overlay Memory.fresh.bytes programStart c.rom.toList⟩ } :=
    Machine.load_eq_ok_iff.mpr ⟨h, rfl⟩
  simp only [Console.reset, Action.bind_apply, Action.modify_apply]
  rw [Action.change_apply_ok (by rw [hload]; rfl)]
  rfl

/-- A reset leaves nothing but the source of random bytes, the keypad and the ROM. -/
theorem started_eq_load (h : c.rom.size ≤ programCapacity) :
    ∃ d, Console.load c.rom (fresh c.machine.source) = (.ok (), d) ∧
      c.started =
        { d with machine := { d.machine with keypad := c.machine.keypad, redraw := true } } := by
  have hload : (fresh c.machine.source).machine.load c.rom =
      .ok { (fresh c.machine.source).machine with
        memory := ⟨overlay Memory.fresh.bytes programStart c.rom.toList⟩ } :=
    Machine.load_eq_ok_iff.mpr ⟨h, rfl⟩
  exact ⟨_, load_ok hload, rfl⟩

theorem started_bytes (c : Console ρ) :
    c.started.machine.memory.bytes = Vector.ofFn fun a =>
      if programStart ≤ a.val then c.rom.getD (a - programStart) 0 else fontSheet.getD a 0 := by
  apply Vector.ext
  intro a ha
  have hfresh : Memory.fresh.bytes[a] = fontSheet.getD a 0 := Vector.getElem_ofFn ha
  show (overlay Memory.fresh.bytes programStart c.rom.toList)[a] = _
  rw [getElem_overlay, Vector.getElem_ofFn, hfresh]
  by_cases hstart : programStart ≤ a
  · -- The font ends below the program area.
    have hfont : fontSheet.getD a 0 = 0 := by
      rw [List.getD_eq_getElem?_getD, List.getElem?_eq_none (Nat.le_trans (by decide) hstart),
        Option.getD_none]
    rw [if_pos hstart, if_pos hstart, hfont, Array.getD_eq_getD_getElem?,
      List.getD_eq_getElem?_getD, Array.getElem?_toList]
  · rw [if_neg hstart, if_neg hstart]

theorem started_started (c : Console ρ) : c.started.started = c.started := rfl

/-- What a reset leaves, whether or not the ROM fits. -/
theorem reset_frame (c : Console ρ) : ∃ memory counter,
    (Console.reset c).2 = { c with machine := { c.machine.reset with memory }, counter } := by
  simp only [Console.reset, Action.bind_apply, Action.modify_apply]
  cases h : c.machine.reset.load c.rom with
  | ok machine =>
    obtain ⟨-, hmachine⟩ := Machine.load_frame h
    rw [Action.change_apply_ok (by rw [h]; rfl)]
    exact ⟨machine.memory, 0, by rw [← hmachine]⟩
  | error e =>
    rw [Action.change_apply_error (by rw [h]; rfl)]
    exact ⟨_, _, rfl⟩

theorem reset_rom (c : Console ρ) : (Console.reset c).2.rom = c.rom := by
  obtain ⟨memory, counter, h⟩ := reset_frame c
  rw [h]

/-! ## Runs -/

/-- The ROM that a call makes the console remember. -/
def Call.rom? : Call → Option (Array UInt8)
  | .load rom => if rom.size ≤ programCapacity then some rom else none
  | _ => none

theorem Call.rom?_load {rom : Array UInt8} (h : rom.size ≤ programCapacity) :
    (Call.load rom).rom? = some rom := if_pos h

theorem Call.size_rom? {call : Call} {rom : Array UInt8} (h : call.rom? = some rom) :
    rom.size ≤ programCapacity := by
  unfold rom? at h
  split at h
  · split at h
    · cases h
      assumption
    · cases h
  · cases h

variable [ByteSource ρ]

theorem act_rom (c : Console ρ) (call : Call) : (act call c).2.rom = call.rom?.getD c.rom := by
  cases call with
  | load rom =>
    rw [act_load]
    cases h : c.machine.load rom with
    | ok machine =>
      rw [load_ok h, Call.rom?_load (Machine.load_eq_ok_iff.mp h).1]
      rfl
    | error e =>
      have hsize : ¬rom.size ≤ programCapacity := by
        intro hsize
        rw [Machine.load_eq_ok_iff.mpr ⟨hsize, rfl⟩] at h
        cases h
      rw [load_error h, Call.rom?, if_neg hsize]
      rfl
  | step => rw [act_step]; rfl
  | paceTimers =>
    obtain ⟨delay, sound, counter, h⟩ := paceTimers_frame c
    rw [act_paceTimers, h]
    rfl
  | press key => rw [act_press, press_state]; rfl
  | release key => rw [act_release, release_state]; rfl
  | takeFrame => rfl
  | reset =>
    rw [act_reset]
    exact reset_rom c

/-- The last ROM that fitted is remembered. -/
theorem runCalls_rom (c : Console ρ) (calls : List Call) :
    (runCalls act c calls).rom = (calls.filterMap Call.rom?).getLastD c.rom := by
  induction calls generalizing c with
  | nil => rfl
  | cons call calls ih =>
    rw [runCalls_cons, ih, act_rom]
    cases h : call.rom? with
    | none => rw [List.filterMap_cons_none h]; rfl
    | some rom => rw [List.filterMap_cons_some h, List.getLastD_cons]; rfl

theorem runCalls_rom_fits (h : c.rom.size ≤ programCapacity) (calls : List Call) :
    (runCalls act c calls).rom.size ≤ programCapacity := by
  refine runCalls_keeps (P := fun c : Console ρ => c.rom.size ≤ programCapacity)
    (fun call _ c hc => ?_) h
  rw [act_rom]
  cases hcall : call.rom? with
  | none => exact hc
  | some rom => exact Call.size_rom? hcall

/-! ## Resets -/

/-- The ROM that a call was given, if it was loaded. -/
def loaded? (c : Console ρ) : Call → Option (Array UInt8)
  | .load rom => (Console.load rom c).1.toOption.map fun _ => rom
  | _ => none

/-- The ROMs that a run of calls loads, oldest first. -/
def loads (c : Console ρ) : List Call → List (Array UInt8)
  | [] => []
  | call :: calls => (c.loaded? call).toList ++ (act call c).2.loads calls

omit [ByteSource ρ] in
theorem loaded?_eq (c : Console ρ) (call : Call) : c.loaded? call = call.rom? := by
  cases call with
  | load rom =>
    rw [loaded?, Call.rom?]
    by_cases hsize : rom.size ≤ programCapacity
    · rw [if_pos hsize, load_ok (Machine.load_eq_ok_iff.mpr ⟨hsize, rfl⟩)]
      rfl
    · rw [if_neg hsize, load_error (Machine.load_eq_error (Nat.lt_of_not_le hsize))]
      rfl
  | _ => rfl

theorem loads_eq (c : Console ρ) (calls : List Call) :
    c.loads calls = calls.filterMap Call.rom? := by
  induction calls generalizing c with
  | nil => rfl
  | cons call calls ih =>
    rw [loads, ih, loaded?_eq]
    cases h : call.rom? with
    | none => rw [List.filterMap_cons_none h]; rfl
    | some rom => rw [List.filterMap_cons_some h]; rfl

/-- After any calls, a reset succeeds and leaves a fresh console that loaded the last ROM that any
of them loaded, its keypad and its screen to be shown apart. Memory holds that ROM and the font
and no other byte, no key is awaited, and another reset changes nothing. -/
theorem reset_eq_fresh_load (source : ρ) (calls : List Call) :
    let c := runCalls act (fresh source) calls
    let rom := ((fresh source).loads calls).getLastD #[]
    ∃ t d, Console.reset c = (.ok (), t) ∧
      Console.load rom (fresh c.machine.source) = (.ok (), d) ∧
      t = { d with machine := { d.machine with keypad := c.machine.keypad, redraw := true } } ∧
      t.machine.memory.bytes = (Vector.ofFn fun a =>
        if programStart ≤ a.val then rom.getD (a - programStart) 0 else fontSheet.getD a 0) ∧
      t.machine.mode = .running ∧ t.counter = 0 ∧ Console.reset t = (.ok (), t) := by
  intro c rom
  have hrom : c.rom = rom := by
    show _ = ((fresh source).loads calls).getLastD #[]
    rw [loads_eq]
    exact runCalls_rom (fresh source) calls
  have hfits : c.rom.size ≤ programCapacity := runCalls_rom_fits (Nat.zero_le _) calls
  obtain ⟨d, hload, ht⟩ := started_eq_load hfits
  rw [← hrom]
  have hagain : Console.reset c.started = (.ok (), c.started.started) := reset_eq hfits
  rw [started_started] at hagain
  exact ⟨c.started, d, reset_eq hfits, hload, ht, started_bytes c, rfl, rfl, hagain⟩

end Chip8.Console
