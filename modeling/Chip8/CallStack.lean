import Chip8.Platform

/-!
# The call stack

Sixteen slots, of which the first `depth` are frames. A pop leaves its slot as it was, so slots
from `depth` on hold stale addresses that nothing reads.
-/

namespace Chip8

structure CallStack where
  slots : Vector UInt16 stackDepth
  depth : Nat
  deriving DecidableEq

namespace CallStack

def empty : CallStack := ⟨Vector.replicate _ 0, 0⟩

instance : Inhabited CallStack := ⟨empty⟩

/-- The frames in use, oldest first. -/
def frames (s : CallStack) : List UInt16 := s.slots.toList.take s.depth

/-- The slot of the newest frame. -/
def top? (s : CallStack) : Option Nat := if s.depth = 0 then none else some (s.depth - 1)

def push? (s : CallStack) (a : UInt16) : Option CallStack :=
  if h : s.depth < stackDepth then some ⟨s.slots.set s.depth a h, s.depth + 1⟩ else none

def pop? (s : CallStack) : Option (UInt16 × CallStack) := do
  let t ← s.top?
  let a ← s.slots[t]?
  return (a, { s with depth := t })

theorem frames_empty : empty.frames = [] := rfl

theorem frames_push {s t : CallStack} {a : UInt16} (h : s.push? a = some t) :
    t.frames = s.frames ++ [a] := by
  unfold push? at h
  split at h
  · rename_i hd
    cases h
    have hl : s.depth < s.slots.toList.length := by simpa using hd
    simp only [frames, Vector.toList_set]
    rw [List.take_succ_eq_append_getElem (by simpa using hl), List.take_set_of_le (Nat.le_refl _)]
    simp
  · cases h

theorem push_eq_none_iff {s : CallStack} {a : UInt16} :
    s.push? a = none ↔ stackDepth ≤ s.depth := by
  unfold push?
  split
  · rename_i h
    exact ⟨fun e => (nomatch e), fun e => absurd h (Nat.not_lt.mpr e)⟩
  · rename_i h
    exact ⟨fun _ => Nat.le_of_not_lt h, fun _ => rfl⟩

/-- What a pop yields is the last frame, and the others stay. -/
theorem frames_pop {s t : CallStack} {a : UInt16} (h : s.pop? = some (a, t)) :
    s.frames = t.frames ++ [a] := by
  obtain ⟨slots, depth⟩ := s
  cases depth with
  | zero => cases h
  | succ d =>
    have h : (slots[d]? >>= fun a => some (a, CallStack.mk slots d)) = some (a, t) := h
    cases hs : slots[d]? with
    | none => rw [hs] at h; cases h
    | some b =>
      rw [hs] at h
      obtain ⟨rfl, rfl⟩ : b = a ∧ CallStack.mk slots d = t := by simpa using h
      obtain ⟨hd, hb⟩ := Vector.getElem?_eq_some_iff.mp hs
      show slots.toList.take (d + 1) = slots.toList.take d ++ [b]
      rw [List.take_succ_eq_append_getElem (by simpa using hd)]
      simp only [Vector.getElem_toList, hb]

end CallStack

end Chip8
