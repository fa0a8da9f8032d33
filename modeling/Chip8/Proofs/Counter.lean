import Chip8.Proofs.Faults
import Chip8.Proofs.Nesting
import Chip8.Proofs.Programs

/-!
# The program counter

How far the program counter gets when instructions run through steps only. A fetch succeeds up to
0xFFE, so that is where calls and waits are; the farthest that an instruction goes from there is a
jump to 0xFFF offset by 0xFF. `Bounded` is the invariant of such runs, and no addition to the
counter wraps in them. As nothing writes memory while a key is awaited but a driver that loads a
program, the waiting instruction stays where the counter is.
-/

namespace Chip8

open Chip8.Action (runCalls runCalls_nil runCalls_cons runCalls_concat runCalls_keeps)

namespace Flow

/-- Where a flow leads from `pc`, without wrapping. -/
def reach : Flow → Nat → Nat
  | next, pc => pc + 2
  | skip, pc => pc + 4
  | jump a, _ => a.toNat
  | hold, pc => pc

theorem toNat_target (flow : Flow) {pc : UInt16} (h : pc.toNat ≤ 0x10FE) :
    (flow.target pc).toNat = flow.reach pc.toNat := by
  cases flow with
  | next =>
    have hadd : (pc + 2).toNat = (pc.toNat + 2) % 65536 := UInt16.toNat_add pc 2
    rw [target, reach, hadd]
    omega
  | skip =>
    have hadd : (pc + 4).toNat = (pc.toNat + 4) % 65536 := UInt16.toNat_add pc 4
    rw [target, reach, hadd]
    omega
  | jump a => rfl
  | hold => rfl

end Flow

/-- The word that waits for a key to store in `Vx`. -/
def Opcode.wait (x : UInt8) : Opcode := (0xF00A : UInt16) ||| x.toUInt16 <<< 8

namespace Opcode

theorem toNat_wait {x : UInt8} (h : x.toNat < registerCount) :
    (wait x).toNat = 0xF00A + 256 * x.toNat := by
  have hall : ∀ n < 16, (wait (UInt8.ofNat n)).toNat = 0xF00A + 256 * n := by decide
  have hx := hall x.toNat h
  rw [UInt8.ofNat_toNat] at hx
  exact hx

theorem eq_wait {w : Opcode} (hf : w.family = 0xF) (hk : w.kk = 0x0A) : w = wait w.x := by
  have hfamily : w.toNat / 4096 % 16 = 15 := by
    rw [← w.toNat_nibble 4096]
    exact congrArg UInt8.toNat hf
  have hlow : w.toNat % 256 = 10 := by
    rw [← w.toNat_kk]
    exact congrArg UInt8.toNat hk
  have hx : w.x.toNat = w.toNat / 256 % 16 := w.toNat_nibble 256
  have hlt := w.toNat_lt
  apply UInt16.toNat_inj.mp
  rw [toNat_wait w.toNat_x_lt]
  omega

end Opcode

namespace Machine

variable {κ ρ : Type} [Keypad κ] [ByteSource ρ]

structure Bounded (m : Machine κ ρ) : Prop where
  pc_le : m.pc.toNat ≤ 0x10FE
  frames_le : ∀ p ∈ m.stack.frames, p.toNat ≤ 0xFFE
  waiting_le : ∀ x, m.mode = .awaitingKey x → m.pc.toNat ≤ 0xFFE

variable {m : Machine κ ρ} {i : Instruction}

/-- While a key is awaited, the counter is at an instruction that waits for it. -/
def Parked (m : Machine κ ρ) : Prop :=
  ∀ x, m.mode = .awaitingKey x → m.fetch = .ok (Opcode.wait x)

omit [Keypad κ] [ByteSource ρ] in
theorem pc_le_of_fetch {w : UInt16} (h : m.fetch = .ok w) : m.pc.toNat ≤ 0xFFE := by
  rcases Nat.lt_or_ge 0xFFE m.pc.toNat with hgt | hle
  · rw [fetch_of_gt hgt] at h
    cases h
  · exact hle

omit [Keypad κ] [ByteSource ρ] in
/-- A return leads behind one of the frames. -/
theorem top_mem_frames (h1 : 0 < m.stack.depth) (h2 : m.stack.depth ≤ stackDepth) :
    m.stack.top ∈ m.stack.frames := by
  rw [CallStack.frames_popped h1 h2]
  exact List.mem_append_right _ (List.mem_singleton.mpr rfl)

/-- A poll delivers nothing, delivers a key and passes the instruction, or refuses what it got. -/
theorem WellFormed.step_awaiting_cases (h : m.WellFormed) {x : UInt8}
    (hm : m.mode = .awaitingKey x) :
    ∃ keypad, (Machine.step m).2 = { m with keypad } ∨
      ∃ key, (Machine.step m).2 = { m with keypad }.resumed x key := by
  rw [step_awaiting hm (h.register_lt x hm)]
  rcases Keypad.nextPress m.keypad with ⟨_ | key, keypad⟩
  · exact ⟨keypad, .inl rfl⟩
  · refine ⟨keypad, ?_⟩
    by_cases hk : key ≤ 0xF
    · exact .inr ⟨key, by simp only [if_pos hk]⟩
    · exact .inl (by simp only [if_neg hk])

namespace Bounded

/-! ## Instructions -/

omit [ByteSource ρ] in
theorem flow_le (h : m.Bounded) (hi : i.WellFormed) (hf : m.fault? i = none)
    (hpc : m.pc.toNat ≤ 0xFFE) : ((m.flow i).target m.pc).toNat ≤ 0x10FE := by
  have hskip : ∀ condition, ((Flow.skipIf condition).target m.pc).toNat ≤ 0x10FE := by
    intro condition
    rw [Flow.toNat_target _ h.pc_le, Flow.skipIf]
    split
    · exact Nat.le_trans (Nat.add_le_add_right hpc 4) (by decide)
    · exact Nat.le_trans (Nat.add_le_add_right hpc 2) (by decide)
  cases i with
  | ret =>
    obtain ⟨h1, h2⟩ := depth_of_fault?_ret hf
    have htop := h.frames_le _ (top_mem_frames h1 h2)
    have hadd := Flow.toNat_target .next (Nat.le_trans htop (by decide))
    show (m.stack.top + 2).toNat ≤ 0x10FE
    rw [Flow.target, Flow.reach] at hadd
    omega
  | jump a | call a =>
    have ha : a.toNat < memorySize := hi (.address a) (by simp [Instruction.operands])
    exact Nat.le_trans (Nat.le_of_lt ha) (by decide)
  | jumpOffset a =>
    have ha : a.toNat < memorySize := hi (.address a) (by simp [Instruction.operands])
    have hv := (m.v 0).toNat_lt
    show (a + (m.v 0).toUInt16).toNat ≤ 0x10FE
    rw [UInt16.toNat_add, UInt8.toNat_toUInt16]
    simp only [memorySize] at ha
    omega
  | skipEqualByte | skipUnequalByte | skipEqual | skipUnequal | skipKeyDown | skipKeyUp =>
    exact hskip _
  | awaitKey => exact h.pc_le
  | _ =>
    show (Flow.target .next m.pc).toNat ≤ 0x10FE
    rw [Flow.toNat_target _ h.pc_le, Flow.reach]
    omega

omit [Keypad κ] [ByteSource ρ] in
/-- Only the address of the instruction itself is added to the frames. -/
theorem frames_after_le (h : m.Bounded) (hf : m.fault? i = none) (hpc : m.pc.toNat ≤ 0xFFE) :
    ∀ p ∈ (m.stackAfter i).frames, p.toNat ≤ 0xFFE := by
  intro p hp
  cases i with
  | ret =>
    obtain ⟨h1, h2⟩ := depth_of_fault?_ret hf
    have hmem : p ∈ m.stack.frames := by
      rw [CallStack.frames_popped h1 h2]
      exact List.mem_append_left _ hp
    exact h.frames_le p hmem
  | call a =>
    change p ∈ (m.stack.pushed m.pc).frames at hp
    rw [CallStack.frames_pushed (depth_of_fault?_call hf), List.mem_append,
      List.mem_singleton] at hp
    rcases hp with hp | rfl
    · exact h.frames_le p hp
    · exact hpc
  | _ => exact h.frames_le p hp

omit [Keypad κ] [ByteSource ρ] in
theorem fresh (keypad : κ) (source : ρ) : (Machine.fresh keypad source).Bounded where
  pc_le := show (0x200 : Nat) ≤ 0x10FE by decide
  frames_le _ hp := by cases hp
  waiting_le _ h := by cases h

theorem performed (h : m.Bounded) (hp : m.performed? = some i) : (m.executed i).Bounded := by
  obtain ⟨hm, w, hw, -⟩ := fetch_of_performed hp
  obtain ⟨hi, hf, -⟩ := step_of_performed hp
  have hpc := pc_le_of_fetch hw
  constructor
  · exact h.flow_le hi hf hpc
  · exact h.frames_after_le hf hpc
  · intro x hx
    obtain rfl := awaitKey_of_modeAfter hm hx
    exact hpc

/-! ## Runs -/

theorem step (hw : m.WellFormed) (h : m.Bounded) : (Machine.step m).2.Bounded := by
  cases hm : m.mode with
  | running =>
    rcases step_cases hm with ⟨-, e, hs⟩ | ⟨i, hp, -, -, hs⟩
    · rw [hs]
      exact h
    · rw [hs]
      exact h.performed hp
  | awaitingKey x =>
    obtain ⟨keypad, hs | ⟨key, hs⟩⟩ := hw.step_awaiting_cases hm
    · rw [hs]
      exact { h with }
    · rw [hs]
      have hnext := Flow.toNat_target .next h.pc_le
      rw [Flow.target, Flow.reach] at hnext
      have hpc : (m.pc + 2).toNat ≤ 0x10FE := by
        rw [hnext]
        exact Nat.le_trans (Nat.add_le_add_right (h.waiting_le x hm) 2) (by decide)
      exact ⟨hpc, h.frames_le, fun _ e => nomatch e⟩

theorem drive (hw : m.WellFormed) (h : m.Bounded) (d : Drive κ) :
    (Machine.drive d m).2.Bounded := by
  cases d with
  | load program =>
    obtain ⟨memory, hl⟩ := drive_load_frame m program
    rw [hl]
    exact { h with }
  | step =>
    rw [drive_step]
    exact h.step hw
  | reset => exact { fresh m.keypad m.source with }
  | takeRedraw | timers | keypad => exact { h with }

theorem runDrives (hm : m.Reachable) (h : m.Bounded) (drives : List (Drive κ)) :
    (runCalls Machine.drive m drives).Bounded := by
  have hkept : ∀ d ∈ drives, ∀ m : Machine κ ρ, m.Reachable ∧ m.Bounded →
      (Machine.drive d m).2.Reachable ∧ (Machine.drive d m).2.Bounded :=
    fun d _ _ h => ⟨h.1.drive d, h.2.drive h.1.wellFormed d⟩
  exact (runCalls_keeps hkept ⟨hm, h⟩).2

end Bounded

/-! ## The waiting instruction -/

namespace Parked

theorem step (hw : m.WellFormed) (h : m.Parked) : (Machine.step m).2.Parked := by
  intro x hx
  cases hm : m.mode with
  | running =>
    rcases step_cases hm with ⟨-, e, hs⟩ | ⟨i, hp, -, -, hs⟩
    · rw [hs] at hx
      cases hm.symm.trans hx
    · obtain ⟨-, w, hw, hd⟩ := fetch_of_performed hp
      rw [hs] at hx ⊢
      obtain rfl := awaitKey_of_modeAfter hm hx
      -- An instruction that waits leaves the counter and the memory alone.
      have hsame : (m.executed (.awaitKey x)).fetch = .ok w := hw
      rw [hsame]
      cases Instruction.row_of_decode? hd with
      | awaitKey hf hk => rw [← Opcode.eq_wait hf hk]
  | awaitingKey y =>
    obtain ⟨keypad, hs | ⟨key, hs⟩⟩ := hw.step_awaiting_cases hm
    · rw [hs] at hx ⊢
      exact h x hx
    · rw [hs] at hx
      cases hx

theorem drive (hw : m.WellFormed) (h : m.Parked) {d : Drive κ}
    (hd : ∀ program, d = .load program → m.mode = .running) : (Machine.drive d m).2.Parked := by
  cases d with
  | load program =>
    intro x hx
    obtain ⟨memory, hl⟩ := drive_load_frame m program
    rw [hl] at hx
    cases (hd program rfl).symm.trans hx
  | step =>
    rw [drive_step]
    exact h.step hw
  | reset => exact fun x hx => nomatch hx
  | takeRedraw | timers | keypad => exact h

theorem runDrives (hm : m.Reachable) (h : m.Parked) {drives : List (Drive κ)}
    (hloads : ∀ earlier program later, drives = earlier ++ .load program :: later →
      (runCalls Machine.drive m earlier).mode = .running) :
    (runCalls Machine.drive m drives).Parked := by
  induction drives generalizing m with
  | nil => exact h
  | cons d drives ih =>
    refine ih (hm.drive d) (h.drive hm.wellFormed ?_) ?_
    · rintro program rfl
      exact hloads [] program drives rfl
    · rintro earlier program later rfl
      exact hloads (d :: earlier) program later rfl

end Parked

/-! ## Runs from a fresh machine -/

/-- However a driver runs a machine by steps, the counter stays below 0x10FF and the frames below
0xFFF, as does the counter while a key is awaited. No addition to any of them wraps: a step leads
where the unwrapped flow says. If no program was loaded during a wait, the waiting instruction is
at the counter whenever a key is awaited. -/
theorem counter_bounds_of_steps (keypad : κ) (source : ρ) (drives : List (Drive κ)) :
    let m := runCalls drive (Machine.fresh keypad source) drives
    m.pc ≤ 0x10FE ∧ (∀ p ∈ m.stack.frames, p ≤ 0xFFE ∧ (p + 2).toNat = p.toNat + 2) ∧
    (∀ x, m.mode = .awaitingKey x → m.pc ≤ 0xFFE ∧ (m.pc + 2).toNat = m.pc.toNat + 2) ∧
    (∀ i, m.performed? = some i → (step m).2.pc.toNat = (m.flow i).reach m.pc.toNat) ∧
    ((∀ earlier program later, drives = earlier ++ .load program :: later →
        (runCalls drive (Machine.fresh keypad source) earlier).mode = .running) →
      ∀ x, m.mode = .awaitingKey x → m.fetch = .ok (Opcode.wait x)) := by
  intro m
  have hfresh : (Machine.fresh keypad source).Reachable := .fresh keypad source
  have h : m.Bounded := (Bounded.fresh keypad source).runDrives hfresh drives
  refine ⟨UInt16.le_iff_toNat_le.mpr h.pc_le, ?_, ?_, ?_, ?_⟩
  · intro p hp
    have hle := h.frames_le p hp
    exact ⟨UInt16.le_iff_toNat_le.mpr hle, Flow.toNat_target .next (Nat.le_trans hle (by decide))⟩
  · intro x hx
    exact ⟨UInt16.le_iff_toNat_le.mpr (h.waiting_le x hx), Flow.toNat_target .next h.pc_le⟩
  · intro i hp
    obtain ⟨-, -, hs⟩ := step_of_performed hp
    rw [hs]
    exact Flow.toNat_target _ h.pc_le
  · intro hloads x hx
    have hparked : (Machine.fresh keypad source).Parked := fun _ e => nomatch e
    exact hparked.runDrives hfresh hloads x hx

/-- `2204` at 0x200 calls `F30A` at 0x204, which waits. -/
theorem counter_bounds_of_steps_in_call :
    ∃ called waiting : Machine HexPad WordCycle,
      runCalls drive (Machine.fresh HexPad.idle (WordCycle.ofList []))
        [.load #[0x22, 0x04, 0x00, 0xE0, 0xF3, 0x0A], .step] = called ∧
      runCalls drive (Machine.fresh HexPad.idle (WordCycle.ofList []))
        [.load #[0x22, 0x04, 0x00, 0xE0, 0xF3, 0x0A], .step, .step] = waiting ∧
      called.stack.frames = [0x200] ∧ (0x200 : UInt16) ≤ 0xFFE ∧
      called.performed? = some (.awaitKey 3) ∧
      (step called).2.pc.toNat = (called.flow (.awaitKey 3)).reach called.pc.toNat ∧
      waiting.mode = .awaitingKey 3 ∧ waiting.pc ≤ 0xFFE ∧ waiting.fetch = .ok 0xF30A := by
  have bounds := counter_bounds_of_steps HexPad.idle (WordCycle.ofList [])
  have hpc : (Machine.fresh HexPad.idle (WordCycle.ofList [])).pc = 0x200 := rfl
  have hempty : (Machine.fresh HexPad.idle (WordCycle.ofList [])).stack = .empty := rfl
  have hrunning : (Machine.fresh HexPad.idle (WordCycle.ofList [])).mode = .running := rfl
  -- The kernel should not compute the runs.
  generalize Machine.fresh HexPad.idle (WordCycle.ofList []) = start at bounds hpc hempty hrunning ⊢
  obtain ⟨loaded, hl⟩ : ∃ t, start.load #[0x22, 0x04, 0x00, 0xE0, 0xF3, 0x0A] = .ok t :=
    ⟨_, load_eq_ok_iff.mpr ⟨by decide, rfl⟩⟩
  have hloaded := (load_frame hl).2
  have hstack : loaded.stack = .empty := by rw [hloaded, hempty]
  have hat : loaded.At _ 0 := at_of_load hl hrunning hpc
  have hcall : loaded.performed? = some (.call 0x204) :=
    hat.performed (by decide) rfl (by rw [fault?, hstack]; rfl)
  obtain ⟨called, hcalled⟩ : ∃ t, loaded.executed (.call 0x204) = t := ⟨_, rfl⟩
  have hframes : called.stack.frames = [0x200] := by
    rw [← hcalled]
    show (loaded.stack.pushed loaded.pc).frames = [0x200]
    rw [hstack, hloaded, hpc]
    rfl
  have hbehind : called.At #[0x22, 0x04, 0x00, 0xE0, 0xF3, 0x0A] 4 := by
    rw [← hcalled]
    exact hat.moved hat.running rfl rfl
  have hwait : called.performed? = some (.awaitKey 3) := hbehind.performed (by decide) rfl rfl
  obtain ⟨waiting, hwaiting⟩ : ∃ t, called.executed (.awaitKey 3) = t := ⟨_, rfl⟩
  have hmode : waiting.mode = .awaitingKey 3 := by
    rw [← hwaiting]
    rfl
  have hrun : runCalls drive start
      [.load #[0x22, 0x04, 0x00, 0xE0, 0xF3, 0x0A], .step] = called := by
    rw [runCalls_cons, drive_load hl, runCalls_cons, drive_step_of_performed hcall, hcalled,
      runCalls_nil]
  have hrun' : runCalls drive start
      [.load #[0x22, 0x04, 0x00, 0xE0, 0xF3, 0x0A], .step, .step] = waiting := by
    rw [← hwaiting, ← drive_step_of_performed hwait, ← hrun]
    exact runCalls_concat start [Drive.load #[0x22, 0x04, 0x00, 0xE0, 0xF3, 0x0A], .step] .step
  have hloads : ∀ earlier program later,
      [.load #[0x22, 0x04, 0x00, 0xE0, 0xF3, 0x0A], .step, .step] =
        earlier ++ .load program :: later → (runCalls drive start earlier).mode = .running := by
    intro earlier program later h
    cases earlier with
    | nil => exact hrunning
    | cons d earlier =>
      have hrest : [Drive.step, .step] = earlier ++ .load program :: later := (List.cons.inj h).2
      have hmem : .load program ∈ ([.step, .step] : List (Drive HexPad)) := by
        rw [hrest]
        exact List.mem_append_right earlier (.head later)
      simp at hmem
  obtain ⟨-, frames, -, steps, -⟩ :=
    bounds [.load #[0x22, 0x04, 0x00, 0xE0, 0xF3, 0x0A], .step]
  obtain ⟨-, -, waits, -, parked⟩ :=
    bounds [.load #[0x22, 0x04, 0x00, 0xE0, 0xF3, 0x0A], .step, .step]
  rw [hrun] at frames steps
  rw [hrun'] at waits parked
  have hreturn := frames 0x200 (by rw [hframes]; exact .head [])
  have hword : Opcode.wait 3 = 0xF30A := by decide
  have hparked := parked hloads 3 hmode
  rw [hword] at hparked
  exact ⟨called, waiting, hrun, hrun', hframes, hreturn.1, hwait, steps _ hwait, hmode,
    (waits 3 hmode).1, hparked⟩

end Machine

end Chip8
