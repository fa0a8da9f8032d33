import Chip8.Fault

/-!
# Actions

An action on a state may fault, and returns the state it leaves either way. A fault therefore does
not undo what was done before it: that a faulting instruction leaves the machine as it was is a
theorem about the instructions, not a property of actions.
-/

namespace Chip8

def Action (σ α : Type) : Type := σ → Except Fault α × σ

namespace Action

variable {σ α β : Type}

protected def pure (a : α) : Action σ α := fun s => (.ok a, s)

protected def bind (x : Action σ α) (f : α → Action σ β) : Action σ β := fun s =>
  match x s with
  | (.ok a, s) => f a s
  | (.error e, s) => (.error e, s)

instance : Monad (Action σ) where
  pure := Action.pure
  bind := Action.bind

def fail (e : Fault) : Action σ α := fun s => (.error e, s)

/-- What a state yields, without a change to it. -/
def view (f : σ → Except Fault α) : Action σ α := fun s => (f s, s)

/-- A change that may be refused, and then is not made. -/
def change (f : σ → Except Fault σ) : Action σ Unit := fun s =>
  match f s with
  | .ok s => (.ok (), s)
  | .error e => (.error e, s)

/-- A change that always succeeds. -/
def modify (f : σ → σ) : Action σ Unit := fun s => (.ok (), f s)

/-- A change that yields a value. -/
def modifyGet (f : σ → α × σ) : Action σ α := fun s =>
  let (a, s) := f s
  (.ok a, s)

@[simp] theorem pure_apply (a : α) (s : σ) : (pure a : Action σ α) s = (.ok a, s) := rfl

theorem bind_apply (x : Action σ α) (f : α → Action σ β) (s : σ) :
    (x >>= f) s =
      match x s with
      | (.ok a, s) => f a s
      | (.error e, s) => (.error e, s) := rfl

theorem bind_apply_ok {x : Action σ α} {f : α → Action σ β} {s t : σ} {a : α}
    (h : x s = (.ok a, t)) : (x >>= f) s = f a t := by
  rw [bind_apply, h]

theorem bind_apply_error {x : Action σ α} {f : α → Action σ β} {s t : σ} {e : Fault}
    (h : x s = (.error e, t)) : (x >>= f) s = (.error e, t) := by
  rw [bind_apply, h]

@[simp] theorem fail_apply (e : Fault) (s : σ) : (fail e : Action σ α) s = (.error e, s) := rfl

@[simp] theorem view_apply (f : σ → Except Fault α) (s : σ) : view f s = (f s, s) := rfl

@[simp] theorem modify_apply (f : σ → σ) (s : σ) : modify f s = (.ok (), f s) := rfl

@[simp] theorem modifyGet_apply (f : σ → α × σ) (s : σ) :
    modifyGet f s = (.ok (f s).1, (f s).2) := rfl

theorem change_apply_ok {f : σ → Except Fault σ} {s t : σ} (h : f s = .ok t) :
    change f s = (.ok (), t) := by
  rw [change, h]

theorem change_apply_error {f : σ → Except Fault σ} {s : σ} {e : Fault} (h : f s = .error e) :
    change f s = (.error e, s) := by
  rw [change, h]

end Action

end Chip8
