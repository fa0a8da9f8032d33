import Chip8.Proofs.Calls
import Chip8.Proofs.Stepping

/-!
# Machines with another keypad or source

The keypad and the source of a machine may be exchanged for others, of other types even. What asks
neither of them does the same before and after the exchange, with the same outcome (`Carries`).
-/

namespace Chip8

namespace Action

variable {σ τ α β : Type} {f : σ → τ}

/-- Where `x` leads to a state, `y` leads to its image, with the same outcome. -/
def Carries (f : σ → τ) (x : Action σ α) (y : Action τ α) : Prop :=
  ∀ s, y (f s) = ((x s).1, f (x s).2)

namespace Carries

theorem pure (a : α) : Carries f (pure a) (pure a) := fun _ => rfl

theorem fail (e : Fault) : Carries f (fail e : Action σ α) (fail e) := fun _ => rfl

theorem modify {g : σ → σ} {h : τ → τ} (hg : ∀ s, h (f s) = f (g s)) :
    Carries f (Action.modify g) (Action.modify h) :=
  fun s => congrArg (Prod.mk _) (hg s)

theorem modifyGet {g : σ → α × σ} {h : τ → α × τ} (hg : ∀ s, h (f s) = ((g s).1, f (g s).2)) :
    Carries f (Action.modifyGet g) (Action.modifyGet h) := by
  intro s
  rw [modifyGet_apply, modifyGet_apply, hg]

theorem change {g : σ → Except Fault σ} {h : τ → Except Fault τ}
    (hg : ∀ s, h (f s) = (g s).map f) : Carries f (Action.change g) (Action.change h) := by
  intro s
  have hs := hg s
  cases hgs : g s with
  | ok t =>
    rw [hgs] at hs
    rw [change_apply_ok hgs, change_apply_ok hs]
  | error e =>
    rw [hgs] at hs
    rw [change_apply_error hgs, change_apply_error hs]

theorem bind {x : Action σ α} {y : Action τ α} {g : α → Action σ β} {h : α → Action τ β}
    (hx : Carries f x y) (hg : ∀ a, Carries f (g a) (h a)) : Carries f (x >>= g) (y >>= h) := by
  intro s
  rw [bind_apply, bind_apply, hx s]
  rcases x s with ⟨_ | a, t⟩
  · rfl
  · exact hg a t

end Carries

end Action

namespace Machine

variable {κ κ' ρ ρ' : Type}

/-- The same machine with another keypad and source. -/
def exchange (keypad : κ → κ') (source : ρ → ρ') (m : Machine κ ρ) : Machine κ' ρ' :=
  { m with keypad := keypad m.keypad, source := source m.source }

variable (keypad : κ → κ') (source : ρ → ρ') (m : Machine κ ρ)

theorem fault?_exchange (i : Instruction) :
    (m.exchange keypad source).fault? i = m.fault? i := by
  cases i with
  | _ => rfl

theorem load_exchange (program : Array UInt8) :
    (m.exchange keypad source).load program =
      (m.load program).map (exchange keypad source) := by
  have hmemory : (m.exchange keypad source).memory = m.memory := rfl
  rw [load, load, hmemory]
  cases m.memory.load program with
  | ok memory => rfl
  | error e => rfl

theorem resume_exchange (x key : UInt8) :
    Action.Carries (exchange keypad source) (resume x key) (resume x key) := by
  unfold resume
  split
  · refine .bind (.change fun m => ?_) fun _ => .modify fun m => rfl
    have hregisters : (m.exchange keypad source).registers = m.registers := rfl
    rw [hregisters]
    cases m.registers.set x key with
    | ok registers => rfl
    | error e => rfl
  · exact .fail _

end Machine

end Chip8
