import Chip8.Proofs.Moves

/-!
# Loaded programs

A running machine whose counter is in a program that was loaded performs the instruction that
stands there, and behind it is in the program again. `At` says where a machine is, `At.performed`
and `At.step_faulted` what its next step does, and `At.moved` and `At.next` where it is then.
-/

namespace Chip8

open Chip8.Action (runCalls runCalls_nil runCalls_cons)

/-- The word at byte `j` of a program. -/
def programWord (program : Array UInt8) (j : Nat) : Opcode :=
  UInt16.ofNat (256 * (program.getD j 0).toNat + (program.getD (j + 1) 0).toNat)

namespace Machine

variable {κ ρ : Type} {m t : Machine κ ρ} {program : Array UInt8} {i : Instruction} {j k : Nat}

/-- The machine is running at byte `j` of the program, which its memory holds. -/
structure At (m : Machine κ ρ) (program : Array UInt8) (j : Nat) : Prop where
  running : m.mode = .running
  toNat_pc : m.pc.toNat = programStart + j
  loaded : ∃ memory : Memory, memory.load program = .ok m.memory

theorem at_of_load (h : m.load program = .ok t) (hm : m.mode = .running)
    (hpc : m.pc = UInt16.ofNat programStart) : t.At program 0 := by
  obtain ⟨hmemory, ht⟩ := load_frame h
  refine ⟨?_, ?_, m.memory, hmemory⟩
  · rw [ht]
    exact hm
  · rw [ht]
    exact congrArg UInt16.toNat hpc

namespace At

theorem fetch (h : m.At program j) (hj : j + 1 < program.size) :
    m.fetch = .ok (programWord program j) := by
  obtain ⟨memory, hload⟩ := h.loaded
  have hhigh := Memory.read_of_load hload (Nat.lt_of_succ_lt hj)
  have hlow := Memory.read_of_load hload hj
  rw [Machine.fetch, h.toNat_pc, Memory.readWord, hhigh, Nat.add_assoc, hlow, programWord,
    Array.getD_eq_getD_getElem?, Array.getD_eq_getD_getElem?, Array.getElem?_eq_getElem hj,
    Array.getElem?_eq_getElem (Nat.lt_of_succ_lt hj)]
  rfl

/-- Elsewhere in the program, which memory still holds. -/
theorem moved (h : m.At program j) (hmode : t.mode = .running)
    (hpc : t.pc.toNat = programStart + k) (hmemory : t.memory = m.memory) : t.At program k where
  running := hmode
  toNat_pc := hpc
  loaded := by
    obtain ⟨memory, hload⟩ := h.loaded
    exact ⟨memory, hload.trans (congrArg Except.ok hmemory.symm)⟩

theorem next (h : m.At program j) (hj : j + 1 < program.size) (hmode : t.mode = .running)
    (hpc : t.pc = m.pc + 2) (hmemory : t.memory = m.memory) : t.At program (j + 2) := by
  refine h.moved hmode ?_ hmemory
  obtain ⟨memory, hload⟩ := h.loaded
  have hfits := (Memory.load_eq_ok_iff.mp hload).1
  have hat := h.toNat_pc
  have hadd : (m.pc + 2).toNat = (m.pc.toNat + 2) % 65536 := UInt16.toNat_add m.pc 2
  rw [hpc]
  simp only [programCapacity, programStart, memorySize] at *
  omega

variable [Keypad κ] [ByteSource ρ]

theorem executes (h : m.At program j) (hj : j + 1 < program.size)
    (hd : Instruction.decode? (programWord program j) = some i) (hf : m.fault? i = none) :
    m.Executes (programWord program j) where
  mode := h.running
  fetch := h.fetch hj
  ok := congrArg Prod.fst (execute_ok_iff.mpr ⟨i, hd, hf, rfl⟩)

theorem performed (h : m.At program j) (hj : j + 1 < program.size)
    (hd : Instruction.decode? (programWord program j) = some i) (hf : m.fault? i = none) :
    m.performed? = some i :=
  performed?_eq_some_iff.mpr ⟨_, h.executes hj hd hf, hd⟩

theorem step_faulted {e : Fault} (h : m.At program j) (hj : j + 1 < program.size)
    (hd : Instruction.decode? (programWord program j) = some i) (hf : m.fault? i = some e) :
    step m = (.error e, m) := by
  have hfault : execute (programWord program j) m = (.error e, m) :=
    execute_error_iff.mpr ⟨rfl, .inr ⟨i, hd, hf⟩⟩
  rw [step_running h.running, h.fetch hj]
  simp only [hfault]
  rfl

end At

variable [Keypad κ] [ByteSource ρ]

theorem drive_step_of_performed (h : m.performed? = some i) : (drive .step m).2 = m.executed i := by
  rw [drive_step, (step_of_performed h).2.2]

end Machine

namespace Console

variable {ρ : Type} [ByteSource ρ] {c : Console ρ} {rom : Array UInt8}

theorem stepMachine_of_performed {i : Instruction} (h : c.machine.performed? = some i) :
    stepMachine c =
      (.ok (c.machine.executed i).mode, { c with machine := c.machine.executed i }) := by
  rw [stepMachine, onMachine, (Machine.step_of_performed h).2.2]

theorem act_step_of_performed {i : Instruction} (h : c.machine.performed? = some i) :
    act .step c =
      (.ok (.mode (c.machine.executed i).mode), { c with machine := c.machine.executed i }) := by
  rw [act_step, (Machine.step_of_performed h).2.2]
  rfl

omit [ByteSource ρ] in
theorem at_of_load (source : ρ) (h : rom.size ≤ programCapacity) :
    (Console.load rom (fresh source)).2.machine.At rom 0 := by
  obtain ⟨machine, hl⟩ : ∃ machine, (fresh source).machine.load rom = .ok machine :=
    ⟨_, Machine.load_eq_ok_iff.mpr ⟨h, rfl⟩⟩
  rw [load_ok hl]
  exact Machine.at_of_load hl rfl rfl

theorem at_of_call_load (source : ρ) (h : rom.size ≤ programCapacity) :
    (runCalls act (fresh source) [.load rom]).machine.At rom 0 := by
  rw [runCalls_cons, runCalls_nil, act_load]
  exact at_of_load source h

end Console

end Chip8
