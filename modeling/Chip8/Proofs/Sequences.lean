import Chip8.Proofs.Stepping
import Chip8.Proofs.Table

/-!
# Opcodes one after another

`execute_of_row` and `eq_executed_of_row` read what an opcode does off its row of the instruction
table. `executeAll` executes a list of opcodes and stops at the first fault, as a program without
jumps would.
-/

namespace Chip8.Machine

variable {κ ρ : Type} [Keypad κ] [ByteSource ρ] {m t u : Machine κ ρ} {w w' : Opcode}
  {i : Instruction}

/-! ## By row -/

theorem execute_of_row (hrow : w.Row i) (hf : m.fault? i = none) :
    execute w m = (.ok (), m.executed i) :=
  execute_ok_iff.mpr ⟨i, Instruction.decode?_of_row hrow, hf, rfl⟩

theorem eq_executed_of_row (hrow : w.Row i) (h : execute w m = (.ok (), t)) :
    t = m.executed i := by
  obtain ⟨j, hd, -, rfl⟩ := execute_ok_iff.mp h
  rw [Instruction.row_unique hrow (Instruction.row_of_decode? hd)]

/-! ## Lists -/

def executeAll : List Opcode → Action (Machine κ ρ) Unit
  | [] => pure ()
  | w :: ws => do
    execute w
    executeAll ws

theorem executeAll_nil (m : Machine κ ρ) : executeAll [] m = (.ok (), m) := rfl

theorem executeAll_cons (h : execute w m = (.ok (), t)) (ws : List Opcode) :
    executeAll (w :: ws) m = executeAll ws t :=
  Action.bind_apply_ok h

theorem executeAll_pair (h : execute w m = (.ok (), t)) (h' : execute w' t = (.ok (), u)) :
    executeAll [w, w'] m = (.ok (), u) := by
  rw [executeAll_cons h, executeAll_cons h', executeAll_nil]

theorem executeAll_append {ws : List Opcode} (h : executeAll ws m = (.ok (), t))
    (vs : List Opcode) : executeAll (ws ++ vs) m = executeAll vs t := by
  induction ws generalizing m with
  | nil =>
    cases h
    rfl
  | cons w ws ih =>
    rcases hw : execute w m with ⟨_ | _, s⟩
    · rw [executeAll, Action.bind_apply_error hw] at h
      cases h
    · rw [executeAll_cons hw] at h
      rw [List.cons_append, executeAll_cons hw, ih h]

end Chip8.Machine
