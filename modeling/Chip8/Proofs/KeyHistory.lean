import Mathlib.Data.List.DropRight
import Chip8.Proofs.Calls
import Chip8.Proofs.Stepping

/-!
# The keypad and its history

What a keypad that began idle shows is read off the calls made on it: a key is down if the last
press or release of it was a press, and the press to deliver is the first valid one since presses
were last polled or cleared. `isHeld_act` and `pending_act` say what one call does to either, and
`isHeld_runCalls` and `pending_runCalls` are the inductions over a history, from its end.
-/

namespace Chip8.HexPad

open Chip8.Action (runCalls runCalls_cons runCalls_concat)

/-! ## Calls -/

inductive Call where
  | press (key : UInt8)
  | release (key : UInt8)
  | poll
  | clear
  deriving DecidableEq, Repr

inductive Reply where
  | done
  | polled (key : Option UInt8)
  deriving DecidableEq, Repr

def act : Call → Action HexPad Reply
  | .press key => do
    .change (·.press key)
    return .done
  | .release key => do
    .change (·.release key)
    return .done
  | .poll => do return .polled (← .modifyGet takePress)
  | .clear => do
    .modify forgetPress
    return .done

namespace Call

/-- The key that a call names. -/
def key? : Call → Option UInt8
  | .press key | .release key => some key
  | .poll | .clear => none

/-- The call names no key above `F`. -/
def isValid (call : Call) : Bool := call.key?.all (· ≤ 0xF)

/-- The key that a call presses, if there is such a key. -/
def validPress? : Call → Option UInt8
  | .press key => if key ≤ 0xF then some key else none
  | _ => none

/-- Presses made before the call are not delivered behind it. -/
def endsPresses : Call → Bool
  | .poll | .clear => true
  | _ => false

end Call

/-- The last press or release of the key is a press. -/
def LastPressed (key : UInt8) (calls : List Call) : Prop :=
  ∃ earlier later, calls = earlier ++ .press key :: later ∧
    Call.press key ∉ later ∧ Call.release key ∉ later

/-- The calls behind the last one that polled or cleared presses. -/
def recent (calls : List Call) : List Call := calls.rtakeWhile (!·.endsPresses)

variable {p : HexPad} {key : UInt8} {call : Call} {calls : List Call}

theorem exists_of_not_isValid (h : ¬call.isValid = true) :
    ∃ key, call.key? = some key ∧ ¬key ≤ 0xF := by
  simpa [Call.isValid, Option.all_eq_true] using h

theorem not_lastPressed_nil : ¬LastPressed key [] := by
  rintro ⟨earlier, later, h, -⟩
  exact List.append_ne_nil_of_right_ne_nil earlier (List.cons_ne_nil _ later) h.symm

theorem lastPressed_concat :
    LastPressed key (calls ++ [call]) ↔
      call = .press key ∨ call ≠ .release key ∧ LastPressed key calls := by
  constructor
  · rintro ⟨earlier, later, h, hpress, hrelease⟩
    rcases List.eq_nil_or_concat' later with rfl | ⟨later, last, rfl⟩
    · exact .inl (List.cons.inj (List.append_inj' h rfl).2).1
    · rw [← List.cons_append, ← List.append_assoc] at h
      obtain ⟨hcalls, hlast⟩ := List.append_inj' h rfl
      cases hlast
      simp only [List.mem_append, List.mem_singleton, not_or] at hpress hrelease
      exact .inr ⟨Ne.symm hrelease.2, earlier, later, hcalls, hpress.1, hrelease.1⟩
  · rintro (rfl | ⟨hne, earlier, later, rfl, hpress, hrelease⟩)
    · exact ⟨calls, [], rfl, List.not_mem_nil, List.not_mem_nil⟩
    · by_cases hcall : call = .press key
      · subst hcall
        exact ⟨earlier ++ .press key :: later, [], rfl, List.not_mem_nil, List.not_mem_nil⟩
      · refine ⟨earlier, later ++ [call], by simp, ?_, ?_⟩
        · simp [hpress, Ne.symm hcall]
        · simp [hrelease, Ne.symm hne]

theorem recent_concat (calls : List Call) (call : Call) :
    recent (calls ++ [call]) = if call.endsPresses then [] else recent calls ++ [call] := by
  rw [recent, List.rtakeWhile_concat]
  cases call.endsPresses with
  | false => rfl
  | true => rfl

/-! ## One call -/

theorem act_press (p : HexPad) (hkey : key ≤ 0xF) :
    ∃ q, p.press key = .ok q ∧ act (.press key) p = (.ok .done, q) := by
  have hpress : ∃ q, p.press key = .ok q := ⟨_, dif_pos (le_iff_lt.mp hkey)⟩
  obtain ⟨q, hq⟩ := hpress
  exact ⟨q, hq, Action.bind_apply_ok (Action.change_apply_ok hq)⟩

theorem act_release (p : HexPad) (hkey : key ≤ 0xF) :
    ∃ q, p.release key = .ok q ∧ act (.release key) p = (.ok .done, q) := by
  have hrelease : ∃ q, p.release key = .ok q := ⟨_, dif_pos (le_iff_lt.mp hkey)⟩
  obtain ⟨q, hq⟩ := hrelease
  exact ⟨q, hq, Action.bind_apply_ok (Action.change_apply_ok hq)⟩

theorem act_refused (p : HexPad) (hcall : call.key? = some key) (hkey : ¬key ≤ 0xF) :
    act call p = (.error (.noSuchKey key), p) := by
  have hge : ¬key.toNat < keyCount := fun h => hkey (le_iff_lt.mpr h)
  cases call with
  | press | release =>
    cases hcall
    exact Action.bind_apply_error (Action.change_apply_error (dif_neg hge))
  | poll | clear => cases hcall

theorem act_accepted (p : HexPad) (h : call.isValid = true) :
    ∃ reply q, act call p = (.ok reply, q) := by
  cases call with
  | press key =>
    obtain ⟨q, -, hact⟩ := act_press p (of_decide_eq_true h)
    exact ⟨_, q, hact⟩
  | release key =>
    obtain ⟨q, -, hact⟩ := act_release p (of_decide_eq_true h)
    exact ⟨_, q, hact⟩
  | poll | clear => exact ⟨_, _, rfl⟩

theorem act_error_iff {e : Fault} :
    (act call p).1 = .error e ↔
      ∃ key, call.key? = some key ∧ 0xF < key ∧ e = .noSuchKey key := by
  constructor
  · intro h
    by_cases hvalid : call.isValid = true
    · obtain ⟨reply, q, hact⟩ := act_accepted p hvalid
      rw [hact] at h
      cases h
    · obtain ⟨key, hcall, hkey⟩ := exists_of_not_isValid hvalid
      rw [act_refused p hcall hkey] at h
      exact ⟨key, hcall, UInt8.not_le.mp hkey, (Except.error.inj h).symm⟩
  · rintro ⟨key, hcall, hkey, rfl⟩
    rw [act_refused p hcall (UInt8.not_le.mpr hkey)]

/-- A call that fails changes nothing. -/
theorem act_of_error {e : Fault} (h : (act call p).1 = .error e) : (act call p).2 = p := by
  obtain ⟨key, hcall, hkey, -⟩ := act_error_iff.mp h
  rw [act_refused p hcall (UInt8.not_le.mpr hkey)]

/-- Neither a poll nor a clear moves a key. -/
theorem isHeld_of_endsPresses (p : HexPad) (h : call.endsPresses = true) (key : UInt8) :
    (act call p).2.isHeld key = p.isHeld key := by
  cases call with
  | press | release => cases h
  | poll | clear => rfl

theorem isHeld_act (p : HexPad) (call : Call) (hkey : key ≤ 0xF) :
    (act call p).2.isHeld key = true ↔
      call = .press key ∨ call ≠ .release key ∧ p.isHeld key = true := by
  cases call with
  | press j =>
    by_cases hj : j ≤ 0xF
    · obtain ⟨q, hq, hact⟩ := act_press p hj
      rw [hact, isHeld_press hq]
      simp only [Bool.or_eq_true, beq_iff_eq, Call.press.injEq, ne_eq, reduceCtorEq,
        not_false_eq_true, true_and]
      exact or_congr_left eq_comm
    · rw [act_refused p rfl hj]
      have hne : j ≠ key := fun e => hj (e ▸ hkey)
      simp [hne]
  | release j =>
    by_cases hj : j ≤ 0xF
    · obtain ⟨q, hq, hact⟩ := act_release p hj
      rw [hact, isHeld_release hq]
      simp only [Bool.and_eq_true, bne_iff_ne, Call.release.injEq, ne_eq, reduceCtorEq, false_or]
      exact and_congr_left' (not_congr eq_comm)
    · rw [act_refused p rfl hj]
      have hne : j ≠ key := fun e => hj (e ▸ hkey)
      simp [hne]
  | poll | clear =>
    rw [isHeld_of_endsPresses p rfl]
    simp

theorem pending_act (p : HexPad) (call : Call) :
    (act call p).2.pending =
      if call.endsPresses then none else p.pending <|> call.validPress? := by
  cases call with
  | press j =>
    by_cases hj : j ≤ 0xF
    · obtain ⟨q, hq, hact⟩ := act_press p hj
      rw [hact, pending_press hq]
      simp [Call.endsPresses, Call.validPress?, hj]
    · rw [act_refused p rfl hj]
      simp [Call.endsPresses, Call.validPress?, hj]
  | release j =>
    by_cases hj : j ≤ 0xF
    · obtain ⟨q, hq, hact⟩ := act_release p hj
      rw [hact, pending_release hq]
      simp [Call.endsPresses, Call.validPress?]
    · rw [act_refused p rfl hj]
      simp [Call.endsPresses, Call.validPress?]
  | poll | clear => rfl

/-! ## Histories -/

theorem isHeld_of_gt (p : HexPad) (hkey : ¬key ≤ 0xF) : p.isHeld key = false := by
  have hge : keyCount ≤ key.toNat := Nat.not_lt.mp fun h => hkey (le_iff_lt.mpr h)
  rw [isHeld, Vector.getElem?_eq_none hge]
  rfl

theorem isHeld_runCalls (calls : List Call) (key : UInt8) :
    (runCalls act idle calls).isHeld key = true ↔ key ≤ 0xF ∧ LastPressed key calls := by
  by_cases hkey : key ≤ 0xF
  · rw [and_iff_right hkey]
    induction calls using List.reverseRecOn with
    | nil =>
      have hidle : (runCalls act idle []).isHeld key = false := by
        simp [runCalls, isHeld, idle, le_iff_lt.mp hkey]
      rw [hidle]
      exact iff_of_false Bool.false_ne_true not_lastPressed_nil
    | append_singleton calls call ih =>
      rw [runCalls_concat, isHeld_act _ call hkey, ih, lastPressed_concat]
  · rw [isHeld_of_gt _ hkey]
    exact iff_of_false Bool.false_ne_true fun h => hkey h.1

theorem pending_runCalls (calls : List Call) :
    (runCalls act idle calls).pending = (recent calls).findSome? Call.validPress? := by
  induction calls using List.reverseRecOn with
  | nil => rfl
  | append_singleton calls call ih =>
    rw [runCalls_concat, pending_act, ih, recent_concat]
    cases call.endsPresses with
    | false => simp [List.findSome?_append]
    | true => rfl

/-- Calls that name no key leave no trace. -/
theorem runCalls_filter_isValid (p : HexPad) (calls : List Call) :
    runCalls act p (calls.filter Call.isValid) = runCalls act p calls := by
  induction calls generalizing p with
  | nil => rfl
  | cons call calls ih =>
    cases hvalid : call.isValid with
    | true => rw [List.filter_cons_of_pos hvalid, runCalls_cons, runCalls_cons, ih]
    | false =>
      have hinvalid : ¬call.isValid = true := by rw [hvalid]; exact Bool.false_ne_true
      obtain ⟨key, hcall, hkey⟩ := exists_of_not_isValid hinvalid
      rw [List.filter_cons_of_neg hinvalid, runCalls_cons, act_refused p hcall hkey, ih]

/-- After any calls on an idle keypad the keys that are down are those whose last press or release
was a press, and a poll delivers the first valid press since presses were last polled or cleared.
Calls fail just when they name a key above `F`, which changes nothing: the history without them
leads to the same keypad. Polling and clearing move no key. -/
theorem keypad_follows_history (calls : List Call) :
    let p := runCalls act idle calls
    (∀ key, p.isHeld key = true ↔ key ≤ 0xF ∧ LastPressed key calls) ∧
    (act .poll p).1 = .ok (.polled ((recent calls).findSome? Call.validPress?)) ∧
    (∀ call e, (act call p).1 = .error e ↔
      ∃ key, call.key? = some key ∧ 0xF < key ∧ e = .noSuchKey key) ∧
    (∀ call e, (act call p).1 = .error e → (act call p).2 = p) ∧
    runCalls act idle (calls.filter Call.isValid) = p ∧
    ∀ key, (act .poll p).2.isHeld key = p.isHeld key ∧
      (act .clear p).2.isHeld key = p.isHeld key := by
  intro p
  have hpoll : (act .poll p).1 = .ok (.polled p.pending) := rfl
  refine ⟨isHeld_runCalls calls, ?_, fun _ _ => act_error_iff, fun _ _ => act_of_error,
    runCalls_filter_isValid idle calls, fun key => ?_⟩
  · rw [hpoll, pending_runCalls]
  · exact ⟨isHeld_of_endsPresses p rfl key, isHeld_of_endsPresses p rfl key⟩

end Chip8.HexPad
