import Chip8.Keypad.Recorded
import Chip8.Proofs.Atomicity
import Chip8.Proofs.Exchange
import Chip8.Proofs.Programs
import Chip8.Proofs.Table

/-!
# What a keypad is asked

The queries of a step are what a recorded keypad holds behind it; recording changes nothing else.
A step asks at most once: while a key is awaited for the next press, otherwise what its
instruction asks. As an instruction that waits is the only one to have presses forgotten, and no
instruction runs before the wait is over, the queries of a run are inquiries about single keys and
whole waits, one behind the other (`Orderly`), for any keypad and whatever it answers.
-/

namespace Chip8

open Chip8.Action (runCalls runCalls_cons runCalls_concat)

/-! ## Recording -/

namespace Machine

variable {κ ρ : Type}

/-- The machine with a recorded keypad that was asked `queries`. -/
def recording (m : Machine κ ρ) (queries : List KeypadQuery) : Machine (RecordedPad κ) ρ :=
  m.exchange (⟨·, queries⟩) id

@[simp] theorem queries_recording (m : Machine κ ρ) (queries : List KeypadQuery) :
    (m.recording queries).keypad.queries = queries := rfl

theorem fault?_recording (m : Machine κ ρ) (i : Instruction) (queries : List KeypadQuery) :
    (m.recording queries).fault? i = m.fault? i :=
  fault?_exchange (RecordedPad.mk · queries) id m i

/-- What an instruction asks of the keypad. -/
def asked (m : Machine κ ρ) : Instruction → List KeypadQuery
  | .skipKeyDown x | .skipKeyUp x => [.isDown (m.v x)]
  | .awaitKey _ => [.forgetPresses]
  | _ => []

variable [Keypad κ] [ByteSource ρ]

/-- What a step asks of the keypad. -/
def queries (m : Machine κ ρ) : List KeypadQuery := (step (m.recording [])).2.keypad.queries

variable {m : Machine κ ρ} {i : Instruction}

theorem executed_recording (m : Machine κ ρ) (i : Instruction) (earlier : List KeypadQuery) :
    (m.recording earlier).executed i = (m.executed i).recording (earlier ++ m.asked i) := by
  cases i with
  | skipKeyDown | skipKeyUp | awaitKey => rfl
  | _ =>
    simp only [asked, List.append_nil]
    rfl

theorem execute_recording (m : Machine κ ρ) (w : Opcode) :
    ∃ queries, ∀ earlier, execute w (m.recording earlier) =
      ((execute w m).1, (execute w m).2.recording (earlier ++ queries)) := by
  simp only [execute_eq, fault?_recording]
  cases Instruction.decode? w with
  | none => exact ⟨[], fun earlier => by rw [List.append_nil]⟩
  | some i =>
    cases hf : m.fault? i with
    | some e => exact ⟨[], fun earlier => by simp only [hf, List.append_nil]⟩
    | none => exact ⟨m.asked i, fun earlier => by simp only [hf, executed_recording]⟩

theorem step_recording_of_awaiting {x : UInt8} (hm : m.mode = .awaitingKey x)
    (earlier : List KeypadQuery) :
    step (m.recording earlier) = ((step m).1, (step m).2.recording (earlier ++ [.nextPress])) := by
  have hpress : Keypad.nextPress (m.recording earlier).keypad =
    ((Keypad.nextPress m.keypad).1,
      ⟨(Keypad.nextPress m.keypad).2, earlier ++ [.nextPress]⟩) := rfl
  rw [step_polling hm, step_polling (m := m.recording earlier) hm, hpress]
  rcases Keypad.nextPress m.keypad with ⟨_ | key, keypad⟩
  · rfl
  · have hresume := resume_exchange (RecordedPad.mk · (earlier ++ [.nextPress])) id x key
      { m with keypad }
    change resume x key { m.recording earlier with keypad := _ } = (_, recording _ _) at hresume
    simp only [hresume]
    rfl

theorem exists_step_recording (m : Machine κ ρ) :
    ∃ queries, ∀ earlier, step (m.recording earlier) =
      ((step m).1, (step m).2.recording (earlier ++ queries)) := by
  cases hm : m.mode with
  | running =>
    have hfetch : ∀ earlier, (m.recording earlier).fetch = m.fetch := fun _ => rfl
    have hstep := fun earlier => step_running (m := m.recording earlier) hm
    simp only [hstep, step_running hm, hfetch]
    cases m.fetch with
    | error e => exact ⟨[], fun earlier => by rw [List.append_nil]⟩
    | ok w =>
      obtain ⟨queries, hw⟩ := execute_recording m w
      exact ⟨queries, fun earlier => by simp only [hw]; rfl⟩
  | awaitingKey x => exact ⟨[.nextPress], step_recording_of_awaiting hm⟩

/-- Recording what a step asks changes nothing else. -/
theorem step_recording (m : Machine κ ρ) (earlier : List KeypadQuery) :
    step (m.recording earlier) = ((step m).1, (step m).2.recording (earlier ++ m.queries)) := by
  obtain ⟨queries, hs⟩ := exists_step_recording m
  have hqueries : m.queries = queries := by
    rw [Machine.queries, hs, queries_recording, List.nil_append]
  rw [hs, hqueries]

/-! ## Steps -/

theorem queries_of_awaiting {x : UInt8} (hm : m.mode = .awaitingKey x) :
    m.queries = [.nextPress] := by
  rw [queries, step_recording_of_awaiting hm, queries_recording, List.nil_append]

theorem queries_of_performed (hp : m.performed? = some i) : m.queries = m.asked i := by
  obtain ⟨hm, w, hw, hd⟩ := fetch_of_performed hp
  obtain ⟨-, hf, -⟩ := step_of_performed hp
  have hrecording : (m.recording []).performed? = some i :=
    performed_of_fetch hm hw hd ((fault?_recording m i []).trans hf)
  obtain ⟨-, -, hs⟩ := step_of_performed hrecording
  rw [queries, hs, executed_recording]
  rfl

/-- A step that faults while the machine is running asks nothing. -/
theorem queries_of_fault {e : Fault} (hm : m.mode = .running) (he : (step m).1 = .error e) :
    m.queries = [] := by
  have hs : step (m.recording []) = (.error e, (step m).2.recording m.queries) := by
    rw [step_recording, he, List.nil_append]
  have hsame : (step m).2.recording m.queries = m.recording [] :=
    eq_of_step_error (m := m.recording []) hm hs
  exact congrArg (·.keypad.queries) hsame

/-! ## Words -/

omit [Keypad κ] [ByteSource ρ] in
/-- Skipping on a key asks for one of the sixteen, or faults. -/
theorem key_le_of_fault? {x : UInt8} (h : m.fault? (.skipKeyDown x) = none) : m.v x ≤ 0xF := by
  by_cases hkey : m.v x ≤ 0xF
  · exact hkey
  · rw [fault?, if_neg hkey] at h
    cases h

/-- The query of a step, read off the mode and the word at the counter. -/
inductive Asks (m : Machine κ ρ) : KeypadQuery → Prop
  | poll {x : UInt8} : m.mode = .awaitingKey x → Asks m .nextPress
  | inquiry {w : Opcode} : m.mode = .running → m.fetch = .ok w → w.family = 0xE →
      w.kk = 0x9E ∨ w.kk = 0xA1 → m.v w.x ≤ 0xF → Asks m (.isDown (m.v w.x))
  | wait {w : Opcode} : m.mode = .running → m.fetch = .ok w → w.family = 0xF →
      w.kk = 0x0A → Asks m .forgetPresses

theorem Asks.queries_eq {q : KeypadQuery} (h : m.Asks q) : m.queries = [q] := by
  cases h with
  | poll hm => exact queries_of_awaiting hm
  | inquiry hm hw hf hk hkey =>
    rcases hk with hk | hk
    · exact queries_of_performed
        (performed_of_fetch hm hw (Instruction.decode?_of_row (.skipKeyDown hf hk)) (if_pos hkey))
    · exact queries_of_performed
        (performed_of_fetch hm hw (Instruction.decode?_of_row (.skipKeyUp hf hk)) (if_pos hkey))
  | wait hm hw hf hk =>
    exact queries_of_performed
      (performed_of_fetch hm hw (Instruction.decode?_of_row (.awaitKey hf hk)) rfl)

/-- What is asked is asked by one of these words, or by a poll. -/
theorem asks_of_mem {q : KeypadQuery} (h : q ∈ m.queries) : m.Asks q := by
  cases hm : m.mode with
  | awaitingKey x =>
    rw [queries_of_awaiting hm, List.mem_singleton] at h
    exact h ▸ .poll hm
  | running =>
    rcases step_cases hm with ⟨-, e, hs⟩ | ⟨i, hp, -, hfault, -⟩
    · rw [queries_of_fault hm (congrArg Prod.fst hs)] at h
      cases h
    · obtain ⟨-, w, hw, hd⟩ := fetch_of_performed hp
      rw [queries_of_performed hp] at h
      cases Instruction.row_of_decode? hd with
      | skipKeyDown hf hk =>
        obtain rfl := List.mem_singleton.mp h
        exact .inquiry hm hw hf (.inl hk) (key_le_of_fault? hfault)
      | skipKeyUp hf hk =>
        obtain rfl := List.mem_singleton.mp h
        exact .inquiry hm hw hf (.inr hk) (key_le_of_fault? hfault)
      | awaitKey hf hk =>
        obtain rfl := List.mem_singleton.mp h
        exact .wait hm hw hf hk
      | _ => cases h

/-! ## Runs -/

def driveQueries (m : Machine κ ρ) : Drive κ → List KeypadQuery
  | .step => m.queries
  | _ => []

/-- What the steps of a run ask, in order. -/
def runQueries (m : Machine κ ρ) : List (Drive κ) → List KeypadQuery
  | [] => []
  | d :: drives => m.driveQueries d ++ (drive d m).2.runQueries drives

theorem runQueries_concat_step (m : Machine κ ρ) (drives : List (Drive κ)) :
    m.runQueries (drives ++ [.step]) =
      m.runQueries drives ++ (runCalls drive m drives).queries := by
  induction drives generalizing m with
  | nil => exact List.append_nil m.queries
  | cons d drives ih =>
    rw [List.cons_append, runQueries, runQueries, ih, runCalls_cons, List.append_assoc]

end Machine

/-- Inquiries about existing keys and whole waits, which have presses forgotten and then poll for
one with nothing in between. -/
inductive Orderly : List KeypadQuery → Prop
  | nil : Orderly []
  | inquiry {key : UInt8} {rest : List KeypadQuery} : key ≤ 0xF → Orderly rest →
      Orderly (.isDown key :: rest)
  | wait (polls : Nat) {rest : List KeypadQuery} : Orderly rest →
      Orderly (.forgetPresses :: (List.replicate polls .nextPress ++ rest))

theorem Orderly.key_le {queries : List KeypadQuery} {key : UInt8} (h : Orderly queries)
    (hmem : .isDown key ∈ queries) : key ≤ 0xF := by
  induction h with
  | nil => cases hmem
  | inquiry hkey _ ih =>
    rcases List.mem_cons.mp hmem with heq | hrest
    · cases heq
      exact hkey
    · exact ih hrest
  | wait polls _ ih =>
    rcases List.mem_cons.mp hmem with heq | hmem
    · cases heq
    · rcases List.mem_append.mp hmem with hpoll | hrest
      · cases List.eq_of_mem_replicate hpoll
      · exact ih hrest

/-- The rest of a wait, if one goes on, and orderly queries behind it. -/
def Mode.Follows (mode : Mode) (queries : List KeypadQuery) : Prop :=
  ∃ polls rest, queries = List.replicate polls .nextPress ++ rest ∧ Orderly rest ∧
    (mode = .running → polls = 0)

theorem Mode.follows_of_orderly {mode : Mode} {queries : List KeypadQuery} (h : Orderly queries) :
    mode.Follows queries :=
  ⟨0, queries, rfl, h, fun _ => rfl⟩

theorem Mode.Follows.orderly {queries : List KeypadQuery} (h : Mode.running.Follows queries) :
    Orderly queries := by
  obtain ⟨polls, rest, rfl, hrest, hpolls⟩ := h
  rw [hpolls rfl]
  exact hrest

namespace Machine

variable {κ ρ : Type} [Keypad κ] [ByteSource ρ] {m : Machine κ ρ} {i : Instruction}

omit [Keypad κ] [ByteSource ρ] in
/-- An instruction begins a wait, or goes on running and asks for one key at most. -/
theorem asked_cases (hm : m.mode = .running) (hf : m.fault? i = none) :
    m.asked i = [.forgetPresses] ∨ m.modeAfter i = .running ∧
      (m.asked i = [] ∨ ∃ key ≤ 0xF, m.asked i = [.isDown key]) := by
  cases i with
  | awaitKey x => exact .inl rfl
  | skipKeyDown x | skipKeyUp x => exact .inr ⟨hm, .inr ⟨m.v x, key_le_of_fault? hf, rfl⟩⟩
  | _ => exact .inr ⟨hm, .inl rfl⟩

theorem follows_of_step {rest : List KeypadQuery} (h : (step m).2.mode.Follows rest) :
    m.mode.Follows (m.queries ++ rest) := by
  cases hm : m.mode with
  | awaitingKey x =>
    obtain ⟨polls, rest, rfl, hrest, -⟩ := h
    rw [queries_of_awaiting hm]
    exact ⟨polls + 1, rest, rfl, hrest, fun e => nomatch e⟩
  | running =>
    rcases step_cases hm with ⟨-, e, hs⟩ | ⟨i, hp, -, hf, hs⟩
    · rw [hs, hm] at h
      rw [queries_of_fault hm (congrArg Prod.fst hs)]
      exact h
    · rw [hs] at h
      rw [queries_of_performed hp]
      rcases asked_cases hm hf with hasked | ⟨hmode, hasked | ⟨key, hkey, hasked⟩⟩
      · obtain ⟨polls, rest, rfl, hrest, -⟩ := h
        rw [hasked]
        exact Mode.follows_of_orderly (.wait polls hrest)
      · have hrest : Mode.running.Follows rest := hmode ▸ h
        rw [hasked]
        exact hrest
      · have hrest : Mode.running.Follows rest := hmode ▸ h
        rw [hasked]
        exact Mode.follows_of_orderly (.inquiry hkey hrest.orderly)

/-- A wait goes on until a step or a reset ends it. -/
theorem follows_runQueries (m : Machine κ ρ) (drives : List (Drive κ)) :
    m.mode.Follows (m.runQueries drives) := by
  induction drives generalizing m with
  | nil => exact Mode.follows_of_orderly .nil
  | cons d drives ih =>
    have hrest := ih (drive d m).2
    cases d with
    | step =>
      rw [drive_step] at hrest
      rw [runQueries, drive_step]
      exact follows_of_step hrest
    | load program =>
      obtain ⟨memory, hl⟩ := drive_load_frame m program
      rw [hl] at hrest
      rw [runQueries, hl]
      exact hrest
    | reset => exact Mode.follows_of_orderly (Mode.Follows.orderly hrest)
    | takeRedraw | timers | keypad => exact hrest

/-- Behind steps, a recorded keypad holds what they asked. -/
theorem runDrives_recording (m : Machine κ ρ) (earlier : List KeypadQuery) (n : Nat) :
    runCalls drive (m.recording earlier) (List.replicate n .step) =
      (runCalls drive m (List.replicate n .step)).recording
        (earlier ++ m.runQueries (List.replicate n .step)) := by
  induction n generalizing m earlier with
  | zero => rw [List.replicate_zero, List.replicate_zero, runQueries, List.append_nil]; rfl
  | succ n ih =>
    have hstep : (drive .step (m.recording earlier)).2 =
        (drive .step m).2.recording (earlier ++ m.queries) := by
      rw [drive_step, drive_step, step_recording]
    rw [List.replicate_succ, List.replicate_succ, runCalls_cons, hstep, ih, runCalls_cons,
      runQueries, driveQueries, List.append_assoc]

/-! ## Polls -/

/-- A poll on behalf of `Vx` ends the wait, or it changes the keypad only and is made again. -/
def Polls (m : Machine κ ρ) (x : UInt8) : Prop :=
  match Keypad.nextPress m.keypad with
  | (none, keypad) => step m = (.ok (.awaitingKey x), { m with keypad }) ∧
      (step m).2.queries = [.nextPress]
  | (some key, keypad) =>
    if key ≤ 0xF then
      step m = (.ok .running, { m with keypad }.resumed x key) ∧
        (step m).2.registers.get x = .ok key
    else step m = (.error (.noSuchKey key), { m with keypad }) ∧
      (step m).2.queries = [.nextPress]

theorem polls_of_awaiting {x : UInt8} (hm : m.mode = .awaitingKey x)
    (hx : x.toNat < registerCount) : m.Polls x := by
  rw [Polls, step_awaiting hm hx]
  rcases Keypad.nextPress m.keypad with ⟨_ | key, keypad⟩
  · exact ⟨rfl, queries_of_awaiting (m := { m with keypad }) hm⟩
  · by_cases hkey : key ≤ 0xF
    · simp only [if_pos hkey]
      exact ⟨trivial, Registers.get_put_self key hx⟩
    · simp only [if_neg hkey]
      exact ⟨trivial, queries_of_awaiting (m := { m with keypad }) hm⟩

/-! ## Runs from the start -/

/-- Where a machine starts, with any keypad and source. -/
inductive Initial : Machine κ ρ → Prop
  | fresh (keypad : κ) (source : ρ) : Initial (.fresh keypad source)
  | reset (m : Machine κ ρ) : Initial m.reset

omit [Keypad κ] [ByteSource ρ] in
theorem Initial.running (h : m.Initial) : m.mode = .running := by
  cases h with
  | _ => rfl

theorem Initial.reachable (h : m.Initial) : m.Reachable := by
  cases h with
  | fresh keypad source => exact .fresh keypad source
  | reset m => exact (Reachable.fresh m.keypad m.source).reset

/-- However a machine is driven from its start, a step asks its keypad one thing at most: while a
key is awaited it polls, while running it asks what the word at the counter asks for, and nothing
if it faults. No key above `F` is ever asked about, and between having presses forgotten and the
end of a wait the keypad is only polled. A poll that yields no key or one above `F` changes the
keypad only and is made again; another key is stored. -/
theorem keypad_asked_in_waits {start : Machine κ ρ} (h : start.Initial)
    (drives : List (Drive κ)) :
    let m := runCalls drive start drives
    (∀ earlier, step (m.recording earlier) =
      ((step m).1, (step m).2.recording (earlier ++ m.queries))) ∧
    (∀ n earlier, runCalls drive (m.recording earlier) (List.replicate n .step) =
      (runCalls drive m (List.replicate n .step)).recording
        (earlier ++ m.runQueries (List.replicate n .step))) ∧
    (∀ q, m.Asks q → m.queries = [q]) ∧
    ((∀ q, ¬m.Asks q) → m.queries = []) ∧
    (∀ e, m.mode = .running → (step m).1 = .error e → m.queries = []) ∧
    (∀ key, .isDown key ∈ start.runQueries drives → key ≤ 0xF) ∧
    Orderly (start.runQueries drives) ∧
    ∀ x, m.mode = .awaitingKey x → m.Polls x := by
  intro m
  have hm : m.WellFormed := (h.reachable.runDrives drives).wellFormed
  have horderly : Orderly (start.runQueries drives) :=
    Mode.Follows.orderly (h.running ▸ follows_runQueries start drives)
  refine ⟨step_recording m, fun n earlier => runDrives_recording m earlier n,
    fun q hq => hq.queries_eq, fun hnone => ?_, fun e hrunning he => queries_of_fault hrunning he,
    fun key hmem => horderly.key_le hmem, horderly,
    fun x hx => polls_of_awaiting hx (hm.register_lt x hx)⟩
  exact List.eq_nil_iff_forall_not_mem.mpr fun q hq => hnone q (asks_of_mem hq)

/-- `E39E` asks about key 0, then `F30A` polls twice, for a key `20` and for key 5; `00EE` faults
behind it. -/
theorem keypad_asked_in_waits_stray_key :
    let start := Machine.fresh (ScriptedPad.mk [] [some 0x20, some 5]) (WordCycle.ofList [])
    let drives := fun n => .load #[0xE3, 0x9E, 0xF3, 0x0A, 0x00, 0xEE] :: List.replicate n .step
    start.Initial ∧
    (runCalls drive start (drives 0)).Asks (.isDown 0) ∧
    (runCalls drive start (drives 0)).queries = [.isDown 0] ∧
    .isDown 0 ∈ start.runQueries (drives 1) ∧ (0 : UInt8) ≤ 0xF ∧
    (runCalls drive start (drives 1)).Asks .forgetPresses ∧
    (runCalls drive start (drives 1)).queries = [.forgetPresses] ∧
    (∀ n ∈ [2, 3], (runCalls drive start (drives n)).mode = .awaitingKey 3 ∧
      (runCalls drive start (drives n)).Polls 3) ∧
    (runCalls drive start (drives 4)).mode = .running ∧
    (step (runCalls drive start (drives 4))).1 = .error (.stackUnderflow 0x204) ∧
    (∀ q, ¬(runCalls drive start (drives 4)).Asks q) ∧
    (runCalls drive start (drives 4)).queries = [] := by
  intro start drives
  have hstart : start.Initial := .fresh _ _
  have laws := fun n => keypad_asked_in_waits hstart (drives n)
  have hpad : start.keypad = ⟨[], [some 0x20, some 5]⟩ := rfl
  have hpc : start.pc = 0x200 := rfl
  have hkey : start.v 3 = 0 := rfl
  have hempty : start.stack = .empty := rfl
  have hrunning : start.mode = .running := rfl
  -- The kernel should not compute the run.
  clear_value start
  have hsplit : ∀ n, drives (n + 1) = drives n ++ [.step] :=
    fun n => congrArg (List.cons _) List.replicate_succ'
  have hnext : ∀ n, runCalls drive start (drives (n + 1)) =
      (drive .step (runCalls drive start (drives n))).2 := by
    intro n
    rw [hsplit, runCalls_concat]
  obtain ⟨loaded, hl⟩ : ∃ t, start.load #[0xE3, 0x9E, 0xF3, 0x0A, 0x00, 0xEE] = .ok t :=
    ⟨_, load_eq_ok_iff.mpr ⟨by decide, rfl⟩⟩
  have hloaded := (load_frame hl).2
  have hrun0 : runCalls drive start (drives 0) = loaded := by
    rw [← drive_load hl]
    rfl
  have hat0 : loaded.At _ 0 := at_of_load hl hrunning hpc
  have hkey0 : loaded.v 3 = 0 := by rw [hloaded]; exact hkey
  have hvalid : loaded.v 3 ≤ 0xF := by rw [hkey0]; decide
  have hasks0 : loaded.Asks (.isDown 0) := by
    have hasks : loaded.Asks (.isDown (loaded.v 3)) :=
      .inquiry hat0.running (hat0.fetch (by decide)) rfl (.inl rfl) hvalid
    rwa [hkey0] at hasks
  -- The key is not down.
  have hp0 : loaded.performed? = some (.skipKeyDown 3) :=
    hat0.performed (by decide) rfl (if_pos hvalid)
  obtain ⟨asked, hasked⟩ : ∃ t, loaded.executed (.skipKeyDown 3) = t := ⟨_, rfl⟩
  have hrun1 : runCalls drive start (drives 1) = asked := by
    rw [hnext, hrun0, drive_step_of_performed hp0, hasked]
  have hpc1 : asked.pc = loaded.pc + 2 := by
    rw [← hasked]
    show (Flow.skipIf (Keypad.isDown loaded.keypad (loaded.v 3)).1).target loaded.pc = _
    rw [hloaded, hpad]
    rfl
  have hat1 : asked.At _ 2 :=
    hat0.next (by decide) (by rw [← hasked]; exact hat0.running) hpc1 (by rw [← hasked]; rfl)
  have hasks1 : asked.Asks .forgetPresses := .wait hat1.running (hat1.fetch (by decide)) rfl rfl
  have hp1 : asked.performed? = some (.awaitKey 3) := hat1.performed (by decide) rfl rfl
  obtain ⟨waiting, hwaiting⟩ : ∃ t, asked.executed (.awaitKey 3) = t := ⟨_, rfl⟩
  have hrun2 : runCalls drive start (drives 2) = waiting := by
    rw [hnext, hrun1, drive_step_of_performed hp1, hwaiting]
  have hmode2 : waiting.mode = .awaitingKey 3 := by rw [← hwaiting]; rfl
  have hpad2 : waiting.keypad = ⟨[], [some 0x20, some 5]⟩ := by
    rw [← hwaiting, ← hasked]
    show loaded.keypad = _
    rw [hloaded, hpad]
  -- The key is refused, and the next one stored.
  obtain ⟨refused, hrefused⟩ : ∃ t, { waiting with keypad := ScriptedPad.mk [] [some 5] } = t :=
    ⟨_, rfl⟩
  have hrun3 : runCalls drive start (drives 3) = refused := by
    rw [hnext, hrun2, drive_step, step_awaiting hmode2 (by decide), hpad2, ← hrefused]
    rfl
  have hmode3 : refused.mode = .awaitingKey 3 := by rw [← hrefused]; exact hmode2
  have hpad3 : refused.keypad = ⟨[], [some 5]⟩ := by rw [← hrefused]
  obtain ⟨stuck, hstuck⟩ : ∃ t, { refused with keypad := ScriptedPad.mk [] [] }.resumed 3 5 = t :=
    ⟨_, rfl⟩
  have hrun4 : runCalls drive start (drives 4) = stuck := by
    rw [hnext, hrun3, drive_step, step_awaiting hmode3 (by decide), hpad3, ← hstuck]
    rfl
  have hat4 : stuck.At #[0xE3, 0x9E, 0xF3, 0x0A, 0x00, 0xEE] 4 := by
    rw [← hstuck, ← hrefused, ← hwaiting]
    exact hat1.next (by decide) rfl rfl rfl
  have hfetch4 : stuck.fetch = .ok 0x00EE := hat4.fetch (by decide)
  have hempty4 : stuck.stack = .empty := by
    rw [← hstuck, ← hrefused, ← hwaiting, ← hasked]
    show loaded.stack = .empty
    rw [hloaded, hempty]
  have hpc4 : stuck.pc = 0x204 := UInt16.toNat_inj.mp hat4.toNat_pc
  have hfault : stuck.fault? .ret = some (.stackUnderflow 0x204) := by
    rw [fault?, hempty4, hpc4]
    rfl
  have hstep4 : (step stuck).1 = .error (.stackUnderflow 0x204) :=
    congrArg Prod.fst (hat4.step_faulted (by decide) rfl hfault)
  have hnone : ∀ q, ¬stuck.Asks q := by
    intro q hq
    cases hq with
    | poll hm => cases hat4.running.symm.trans hm
    | inquiry _ hw hf => cases hfetch4.symm.trans hw; revert hf; decide
    | wait _ hw hf => cases hfetch4.symm.trans hw; revert hf; decide
  obtain ⟨-, -, asks0, -⟩ := laws 0
  obtain ⟨-, -, asks1, -, -, keys1, -⟩ := laws 1
  obtain ⟨-, -, -, -, -, -, -, polls2⟩ := laws 2
  obtain ⟨-, -, -, -, -, -, -, polls3⟩ := laws 3
  obtain ⟨-, -, -, nothing4, -⟩ := laws 4
  rw [hrun0] at asks0 ⊢
  rw [hrun1] at asks1 ⊢
  rw [hrun2] at polls2
  rw [hrun3] at polls3
  rw [hrun4] at nothing4 ⊢
  have hmem : .isDown 0 ∈ start.runQueries (drives 1) := by
    rw [hsplit, runQueries_concat_step, hrun0, asks0 _ hasks0]
    exact List.mem_append_right _ (.head [])
  refine ⟨hstart, hasks0, asks0 _ hasks0, hmem, keys1 0 hmem, hasks1, asks1 _ hasks1, ?_,
    hat4.running, hstep4, hnone, nothing4 hnone⟩
  rw [List.forall_mem_cons, List.forall_mem_singleton, hrun2, hrun3]
  exact ⟨⟨hmode2, polls2 3 hmode2⟩, hmode3, polls3 3 hmode3⟩

end Machine

end Chip8
