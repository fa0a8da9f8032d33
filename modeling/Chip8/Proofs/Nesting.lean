import Chip8.Proofs.Invariant
import Chip8.Proofs.Table

/-!
# Nested calls

The call stack is a list of at most sixteen return addresses, although its slots keep the addresses
of frames that are gone. A call pushes, a return pops, and no other move touches the list. A run
whose calls and returns are balanced therefore leaves the list as it found it: by induction on the
run, with the frames it pushed itself laid on those it found.
-/

namespace Chip8

open Chip8.Action (runCalls)

/-! ## Frames -/

namespace CallStack

variable {s : CallStack}

theorem frames_of_top_none (h : s.top? = none) : s.frames = [] := by
  rw [frames, depth_of_top?_none h, List.take_zero]

theorem frames_of_top_some {top : Nat} (h : s.top? = some top) :
    s.frames = s.slots.toList.take (top + 1) := by
  rw [frames, depth_of_top?_some h]

theorem frames_pushed (h : s.depth < stackDepth) (a : UInt16) :
    (s.pushed a).frames = s.frames ++ [a] :=
  frames_push (push?_eq s a h)

theorem frames_popped (h1 : 0 < s.depth) (h2 : s.depth ≤ stackDepth) :
    s.frames = s.popped.frames ++ [s.top] :=
  frames_pop (pop?_eq s h1 h2)

end CallStack

/-! ## Balanced traces -/

def Instruction.isCall : Instruction → Bool
  | .call _ => true
  | _ => false

def calls (trace : List Instruction) : Nat := trace.countP Instruction.isCall

def returns (trace : List Instruction) : Nat := trace.count .ret

theorem calls_append (a b : List Instruction) : calls (a ++ b) = calls a + calls b :=
  List.countP_append

theorem returns_append (a b : List Instruction) : returns (a ++ b) = returns a + returns b :=
  List.count_append

theorem calls_of_other {label : Option Instruction} (h : ∀ a, label ≠ some (.call a)) :
    calls label.toList = 0 := by
  rcases label with _ | i
  · rfl
  · cases i with
    | call a => exact absurd rfl (h a)
    | _ => rfl

theorem returns_of_other {label : Option Instruction} (h : label ≠ some .ret) :
    returns label.toList = 0 := by
  rcases label with _ | i
  · rfl
  · exact List.count_eq_zero.mpr fun hm => h (congrArg some (List.mem_singleton.mp hm).symm)

/-- No prefix has more returns than calls, and the whole has as many of them. -/
structure Balanced (trace : List Instruction) : Prop where
  prefixes : ∀ n, returns (trace.take n) ≤ calls (trace.take n)
  total : returns trace = calls trace

namespace Machine

variable {κ ρ : Type} [Keypad κ] [ByteSource ρ] {m t : Machine κ ρ}

/-! ## Instructions -/

omit [Keypad κ] [ByteSource ρ] in
/-- Only calls and returns touch the call stack. -/
theorem stackAfter_of_other {i : Instruction} (hcall : i.isCall = false) (hret : i ≠ .ret) :
    m.stackAfter i = m.stack := by
  cases i with
  | call => cases hcall
  | ret => exact absurd rfl hret
  | _ => rfl

omit [Keypad κ] [ByteSource ρ] in
theorem depth_of_fault?_ret (h : m.fault? .ret = none) :
    0 < m.stack.depth ∧ m.stack.depth ≤ stackDepth := by
  simpa [fault?] using h

omit [Keypad κ] [ByteSource ρ] in
theorem depth_of_fault?_call {a : UInt16} (h : m.fault? (.call a) = none) :
    m.stack.depth < stackDepth := by
  simpa [fault?] using h

/-! ## Moves -/

theorem Move.call {a : UInt16} (h : Move m (some (.call a)) t) :
    t.stack.frames = m.stack.frames ++ [m.pc] ∧ t.pc = a := by
  rcases h.cases with ⟨i, hi, -, hf, rfl⟩ | ⟨hnone, -⟩
  · cases hi
    exact ⟨CallStack.frames_pushed (depth_of_fault?_call hf) m.pc, rfl⟩
  · cases hnone

theorem Move.ret (h : Move m (some .ret) t) :
    ∃ p, m.stack.frames = t.stack.frames ++ [p] ∧ t.pc = p + 2 := by
  rcases h.cases with ⟨i, hi, -, hf, rfl⟩ | ⟨hnone, -⟩
  · cases hi
    obtain ⟨h1, h2⟩ := depth_of_fault?_ret hf
    exact ⟨m.stack.top, CallStack.frames_popped h1 h2, rfl⟩
  · cases hnone

theorem Move.other {label : Option Instruction} (h : Move m label t)
    (hcall : ∀ a, label ≠ some (.call a)) (hret : label ≠ some .ret) :
    t.stack.frames = m.stack.frames := by
  rcases h.cases with ⟨i, rfl, -, -, rfl⟩ | ⟨-, hq⟩
  · have hi : i.isCall = false := by
      cases i with
      | call a => exact absurd rfl (hcall a)
      | _ => rfl
    have hne : i ≠ .ret := fun e => hret (congrArg some e)
    exact congrArg CallStack.frames (stackAfter_of_other hi hne)
  · rw [hq.stack]

/-- The frames of a run's own, laid on those it found, grow with calls and shrink with returns. -/
theorem Move.frames {label : Option Instruction} (h : Move m label t) {base own : List UInt16}
    (hm : m.stack.frames = base ++ own) (hown : label = some .ret → own ≠ []) :
    ∃ own', t.stack.frames = base ++ own' ∧
      own'.length + returns label.toList = own.length + calls label.toList := by
  by_cases hret : label = some .ret
  · subst hret
    obtain ⟨p, hpop, -⟩ := h.ret
    obtain ⟨rest, last, rfl⟩ := (List.eq_nil_or_concat own).resolve_left (hown rfl)
    rw [hm, List.concat_eq_append, ← List.append_assoc] at hpop
    refine ⟨rest, (List.append_inj' hpop rfl).1.symm, ?_⟩
    rw [List.concat_eq_append, List.length_append]
    rfl
  by_cases hcall : ∃ a, label = some (.call a)
  · obtain ⟨a, rfl⟩ := hcall
    refine ⟨own ++ [m.pc], ?_, ?_⟩
    · rw [h.call.1, hm, List.append_assoc]
    · rw [List.length_append]
      rfl
  · refine ⟨own, (h.other (fun a e => hcall ⟨a, e⟩) hret).trans hm, ?_⟩
    rw [calls_of_other (fun a e => hcall ⟨a, e⟩), returns_of_other hret]

/-! ## Runs -/

/-- A run that never returns from more than its own frames leaves those beneath them alone. -/
theorem Moves.frames {trace : List Instruction} (h : Moves m trace t) {base own : List UInt16}
    (hm : m.stack.frames = base ++ own)
    (hfits : ∀ n, returns (trace.take n) ≤ own.length + calls (trace.take n)) :
    ∃ own', t.stack.frames = base ++ own' ∧
      own'.length + returns trace = own.length + calls trace := by
  induction h generalizing own with
  | nil => exact ⟨own, hm, rfl⟩
  | @cons m t u label trace hmove _ ih =>
    have hown : label = some .ret → own ≠ [] := by
      rintro rfl rfl
      have hfirst : returns [.ret] ≤ 0 + calls [.ret] := hfits 1
      exact absurd hfirst (by decide)
    obtain ⟨own₁, ht, hcount₁⟩ := hmove.frames hm hown
    have hrest : ∀ n, returns (trace.take n) ≤ own₁.length + calls (trace.take n) := by
      intro n
      have := hfits (label.toList.length + n)
      rw [List.take_length_add_append, returns_append, calls_append] at this
      omega
    obtain ⟨own₂, hu, hcount₂⟩ := ih ht hrest
    refine ⟨own₂, hu, ?_⟩
    rw [returns_append, calls_append]
    omega

theorem Moves.frames_of_balanced {trace : List Instruction} (h : Moves m trace t)
    (hb : Balanced trace) : t.stack.frames = m.stack.frames := by
  have hfits : ∀ n, returns (trace.take n) ≤ 0 + calls (trace.take n) := by
    intro n
    rw [Nat.zero_add]
    exact hb.prefixes n
  obtain ⟨own, ht, hcount⟩ := h.frames (List.append_nil m.stack.frames).symm hfits
  have hnone : own = [] := by
    rw [hb.total] at hcount
    exact List.eq_nil_of_length_eq_zero (Nat.add_right_cancel hcount)
  rw [ht, hnone, List.append_nil]

/-! ## Opcodes -/

theorem execute_call {w : Opcode} (hw : w.family = 0x2) (h : m.stack.depth < stackDepth) :
    execute w m = (.ok (), m.executed (.call w.addr)) :=
  execute_ok_iff.mpr ⟨_, Instruction.decode?_of_row (.call hw), if_pos h, rfl⟩

theorem execute_call_full {w : Opcode} (hw : w.family = 0x2) (h : ¬m.stack.depth < stackDepth) :
    execute w m = (.error (.stackOverflow m.pc), m) :=
  execute_error_iff.mpr
    ⟨rfl, .inr ⟨_, Instruction.decode?_of_row (.call hw), if_neg h⟩⟩

theorem execute_ret (h1 : 0 < m.stack.depth) (h2 : m.stack.depth ≤ stackDepth) :
    execute 0x00EE m = (.ok (), m.executed .ret) :=
  execute_ok_iff.mpr ⟨_, Instruction.decode?_of_row (.ret rfl), if_pos ⟨h1, h2⟩, rfl⟩

theorem execute_ret_empty (h : ¬0 < m.stack.depth) :
    execute 0x00EE m = (.error (.stackUnderflow m.pc), m) :=
  execute_error_iff.mpr
    ⟨rfl, .inr ⟨_, Instruction.decode?_of_row (.ret rfl), if_neg fun hd => h hd.1⟩⟩

/-! ## The list -/

/-- On every machine that can be reached, with any keypad and any source, the call stack is a list
of at most sixteen return addresses: calls push, returns pop, a full list refuses calls and an
empty one returns, and nothing else changes it but a reset, which empties it. A run whose calls and
returns are balanced leaves it as it was, and a return goes behind its call. -/
theorem call_stack_is_bounded_list :
    (∀ m : Machine κ ρ, m.Reachable →
      let frames := m.stack.frames
      (m.stack.top? = none → frames = []) ∧
      (∀ top, m.stack.top? = some top →
        top < stackDepth ∧ frames = m.stack.slots.toList.take (top + 1)) ∧
      (∀ w : Opcode, w.family = 0x2 →
        if frames.length < stackDepth then
          ∃ t, execute w m = (.ok (), t) ∧ t.stack.frames = frames ++ [m.pc] ∧ t.pc = w.addr
        else frames.length = stackDepth ∧ execute w m = (.error (.stackOverflow m.pc), m)) ∧
      (∀ older p, frames = older ++ [p] →
        ∃ t, execute 0x00EE m = (.ok (), t) ∧ t.stack.frames = older ∧ t.pc = p + 2) ∧
      (frames = [] → execute 0x00EE m = (.error (.stackUnderflow m.pc), m)) ∧
      (∀ w : Opcode, w.family ≠ 0x2 → w ≠ 0x00EE → (execute w m).2.stack.frames = frames) ∧
      (∀ x, m.mode = .awaitingKey x → (step m).2.stack.frames = frames) ∧
      (∀ t, Move m none t → t.stack.frames = frames) ∧
      m.reset.stack.frames = []) ∧
    (∀ (m t : Machine κ ρ) (trace : List Instruction), Moves m trace t → Balanced trace →
      t.stack.frames = m.stack.frames) ∧
    ∀ (m called returning t : Machine κ ρ) (a : UInt16) (body : List Instruction),
      Move m (some (.call a)) called → Moves called body returning → Balanced body →
      Move returning (some .ret) t → t.pc = m.pc + 2 ∧ t.stack.frames = m.stack.frames := by
  refine ⟨?_, fun m t trace h hb => h.frames_of_balanced hb, ?_⟩
  · intro m hm frames
    have hd := hm.wellFormed.depth_le
    have hlength : frames.length = m.stack.depth := m.stack.length_frames hd
    have hnone : ∀ t, Move m none t → t.stack.frames = frames :=
      fun t h => h.other (fun _ e => nomatch e) (fun e => nomatch e)
    refine ⟨CallStack.frames_of_top_none, ?_, ?_, ?_, ?_, ?_, ?_, hnone, CallStack.frames_empty⟩
    · intro top htop
      refine ⟨?_, CallStack.frames_of_top_some htop⟩
      rw [CallStack.depth_of_top?_some htop] at hd
      exact hd
    · intro w hw
      split
      · rename_i hroom
        rw [hlength] at hroom
        exact ⟨_, execute_call hw hroom, CallStack.frames_pushed hroom m.pc, rfl⟩
      · rename_i hfull
        rw [hlength] at hfull ⊢
        exact ⟨by omega, execute_call_full hw hfull⟩
    · intro older p hframes
      have hpos : 0 < m.stack.depth := by
        rw [← hlength, hframes, List.length_append]
        exact Nat.succ_pos _
      have hpop := (hframes.symm.trans (CallStack.frames_popped hpos hd))
      obtain ⟨hrest, htop⟩ := List.append_inj' hpop rfl
      cases htop
      exact ⟨_, execute_ret hpos hd, hrest.symm, rfl⟩
    · intro hempty
      rw [hempty] at hlength
      exact execute_ret_empty (by rw [← hlength]; exact Nat.lt_irrefl 0)
    · intro w hcall hret
      refine (Move.execute m w).other (fun a e => ?_) fun e => ?_
      · cases Instruction.row_of_decode? (performedBy?_eq_some.mp e).1 with
        | call hf => exact hcall hf
      · cases Instruction.row_of_decode? (performedBy?_eq_some.mp e).1 with
        | ret hw => exact hret hw
    · intro x hx
      exact hnone _ (performed?_of_awaiting hx ▸ Move.step m)
  · intro m called returning t a body hcall hbody hb hret
    obtain ⟨p, hpop, hpc⟩ := hret.ret
    rw [hbody.frames_of_balanced hb, hcall.call.1] at hpop
    obtain ⟨hframes, htop⟩ := List.append_inj' hpop rfl
    cases htop
    exact ⟨hpc, hframes.symm⟩

/-- A call in a call, both returned from, and one return too many; then sixteen calls and one call
too many. -/
theorem call_stack_is_bounded_list_nested :
    let m := Machine.fresh HexPad.idle (WordCycle.ofList [])
    let called := (execute 0x2300 m).2
    let back := (execute 0x00EE (execute 0x2400 called).2).2
    let t := (execute 0x00EE back).2
    let full := runCalls act m (List.replicate 16 (.execute 0x2300))
    called.stack.frames = [0x200] ∧ back.stack.frames = called.stack.frames ∧
    t.pc = m.pc + 2 ∧ t.stack.frames = [] ∧
    execute 0x00EE t = (.error (.stackUnderflow 0x202), t) ∧
    full.stack.frames.length = 16 ∧
    execute 0x2300 full = (.error (.stackOverflow 0x300), full) := by
  intro m called back t full
  have hm : m.Reachable := .fresh _ _
  have hcall : Move m (some (.call 0x300)) called := .execute m 0x2300
  have hcalled : called.Reachable := hm.move hcall
  have hinner : Move called (some (.call 0x400)) (execute 0x2400 called).2 :=
    .execute called 0x2400
  have hback : Move (execute 0x2400 called).2 (some .ret) back := .execute _ 0x00EE
  have hbody : Moves called [.call 0x400, .ret] back := .cons hinner (.cons hback (.nil back))
  have hbalanced : Balanced [.call 0x400, .ret] := by
    refine ⟨fun n => ?_, rfl⟩
    match n with
    | 0 => exact Nat.le_refl 0
    | 1 => exact Nat.zero_le 1
    | n + 2 => exact Nat.le_of_eq (by simp only [List.take_succ_cons, List.take_nil]; rfl)
  have hret : Move back (some .ret) t := .execute back 0x00EE
  obtain ⟨list, kept, behind⟩ := call_stack_is_bounded_list (κ := HexPad) (ρ := WordCycle)
  obtain ⟨hpc, hframes⟩ := behind m called back t 0x300 _ hcall hbody hbalanced hret
  have hbottom : t.stack.frames = [] := hframes.trans rfl
  have ht : t.Reachable := (hcalled.moves hbody).move hret
  obtain ⟨-, -, -, -, underflow, -⟩ := list t ht
  have hfull : full.stack.frames.length = 16 := by decide +kernel
  have hat : full.pc = 0x300 := by decide +kernel
  have hreached : full.Reachable := hm.runCalls _
  clear_value full
  obtain ⟨-, -, overflow, -⟩ := list full hreached
  have hover := overflow 0x2300 rfl
  rw [if_neg (by rw [hfull]; decide), hat] at hover
  refine ⟨rfl, kept called back _ hbody hbalanced, hpc, hbottom, ?_, hfull, hover.2⟩
  exact underflow hbottom

end Machine

end Chip8
