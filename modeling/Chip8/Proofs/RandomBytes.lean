import Chip8.Proofs.Exchange
import Chip8.Proofs.Hidden
import Chip8.Proofs.Programs
import Chip8.Proofs.Table
import Chip8.Random.KeyStream

/-!
# Random bytes

A step that performs a `random` takes the next byte of the source; nothing else takes one. The
bytes that a console took are therefore the first of its stream, as many as it performed `random`s,
and it behaves alike on any other source that begins with the same ones.
-/

namespace Chip8

open Chip8.Action (runCalls runCalls_cons runCalls_concat)

variable {κ ρ τ : Type} [ByteSource ρ] [ByteSource τ]

/-! ## Streams -/

namespace ByteSource

theorem drop_add (s : ρ) (n k : Nat) : drop s (n + k) = drop (drop s n) k := by
  induction k with
  | zero => rfl
  | succ k ih => rw [← Nat.add_assoc, drop, drop, ih]

theorem byte_drop (s : ρ) (n j : Nat) : byte (drop s n) j = byte s (n + j) := by
  rw [byte, byte, drop_add]

/-- The streams of two sources begin with the same `n` bytes. -/
def AgreeOn (n : Nat) (s : ρ) (t : τ) : Prop := ∀ j < n, byte t j = byte s j

theorem AgreeOn.split {s : ρ} {t : τ} {n k : Nat} (h : AgreeOn (n + k) s t) :
    AgreeOn n s t ∧ AgreeOn k (drop s n) (drop t n) := by
  refine ⟨fun j hj => h j (Nat.lt_of_lt_of_le hj (Nat.le_add_right n k)), fun j hj => ?_⟩
  rw [byte_drop, byte_drop]
  exact h (n + j) (Nat.add_lt_add_left hj n)

end ByteSource

theorem KeyStream.drop_eq (s : KeyStream) (n : Nat) :
    ByteSource.drop s n = { s with position := s.position + n } := by
  induction n with
  | zero => rfl
  | succ n ih =>
    rw [ByteSource.drop, ih]
    rfl

/-- A source that counts the bytes taken from it. -/
structure CountedSource (ρ : Type) where
  source : ρ
  taken : Nat

namespace CountedSource

instance : ByteSource (CountedSource ρ) where
  next s :=
    let (b, source) := ByteSource.next s.source
    (b, ⟨source, s.taken + 1⟩)

theorem drop_eq (s : CountedSource ρ) (n : Nat) :
    ByteSource.drop s n = ⟨ByteSource.drop s.source n, s.taken + n⟩ := by
  induction n with
  | zero => rfl
  | succ n ih =>
    rw [ByteSource.drop, ih]
    rfl

theorem byte_eq (s : CountedSource ρ) (j : Nat) :
    ByteSource.byte s j = ByteSource.byte s.source j := by
  rw [ByteSource.byte, drop_eq]
  rfl

end CountedSource

/-! ## Steps -/

/-- How many bytes an instruction takes. -/
def Instruction.rolls : Instruction → Nat
  | .random .. => 1
  | _ => 0

namespace Machine

omit [ByteSource ρ] [ByteSource τ] in
/-- The same machine, which takes its bytes from elsewhere. -/
def withSource (m : Machine κ ρ) (source : τ) : Machine κ τ := m.exchange id fun _ => source

variable [Keypad κ] {m : Machine κ ρ} {i : Instruction} {t : τ}

open ByteSource (drop AgreeOn)

theorem source_executed (m : Machine κ ρ) (i : Instruction) :
    (m.executed i).source = drop m.source i.rolls := by
  cases i with
  | _ => rfl

theorem executed_withSource (h : AgreeOn i.rolls m.source t) :
    (m.withSource t).executed i = (m.executed i).withSource (drop t i.rolls) := by
  cases i with
  | random x kk =>
    have hbyte : (ByteSource.next t).1 = (ByteSource.next m.source).1 := h 0 Nat.zero_lt_one
    exact congrArg (fun b => { m.executed (.random x kk) with
      registers := m.registers.put x (b &&& kk), source := (ByteSource.next t).2 }) hbyte
  | _ => rfl

/-- How many `random`s a step performs. -/
def rolls (m : Machine κ ρ) : Nat := m.performed?.elim 0 Instruction.rolls

theorem rolls_of_performed (hp : m.performed? = some i) : m.rolls = i.rolls := by
  rw [rolls, hp]
  rfl

theorem rolls_of_not_performed (hp : m.performed? = none) : m.rolls = 0 := by
  rw [rolls, hp]
  rfl

/-- What is performed is a `random` if its word is `Cxkk`; no `Cxkk` faults. -/
theorem performed_random_iff {x kk : UInt8} : m.performed? = some (.random x kk) ↔
    m.mode = .running ∧ ∃ w, m.fetch = .ok w ∧ Opcode.family w = 0xC ∧ Opcode.x w = x ∧
      Opcode.kk w = kk := by
  constructor
  · intro hp
    obtain ⟨hm, w, hw, hd⟩ := fetch_of_performed hp
    cases Instruction.row_of_decode? hd with
    | random hf => exact ⟨hm, w, hw, hf, rfl, rfl⟩
  · rintro ⟨hm, w, hw, hf, rfl, rfl⟩
    exact performed_of_fetch hm hw (Instruction.decode?_of_row (.random hf)) rfl

/-- A `random` stores the next byte, masked. -/
theorem get_of_performed_random {x kk : UInt8} (hp : m.performed? = some (.random x kk)) :
    (step m).2.registers.get x = .ok (ByteSource.byte m.source 0 &&& kk) := by
  obtain ⟨hi, -, hs⟩ := step_of_performed hp
  have hx : x.toNat < registerCount := hi (.register x) (by simp [Instruction.operands])
  rw [hs]
  exact Registers.get_put_self _ hx

/-- A step takes a byte for each `random` it performs. -/
theorem source_step (m : Machine κ ρ) : (step m).2.source = drop m.source m.rolls := by
  cases hm : m.mode with
  | awaitingKey x =>
    obtain ⟨registers, pc, mode, keypad, hs, -⟩ := step_awaiting_frame hm
    rw [hs, rolls_of_not_performed (performed?_of_awaiting hm)]
    rfl
  | running =>
    rcases step_cases hm with ⟨hp, e, hs⟩ | ⟨i, hp, -, -, hs⟩
    · rw [hs, rolls_of_not_performed hp]
      rfl
    · rw [hs, rolls_of_performed hp, source_executed]

/-- A step that performs nothing does not ask for its source. -/
theorem step_withSource_of_not_performed (hp : m.performed? = none) (t : τ) :
    step (m.withSource t) = ((step m).1, (step m).2.withSource t) := by
  cases hm : m.mode with
  | awaitingKey x =>
    have hpad : (m.withSource t).keypad = m.keypad := rfl
    rw [step_polling hm, step_polling (m := m.withSource t) hm, hpad]
    rcases Keypad.nextPress m.keypad with ⟨_ | key, keypad⟩
    · rfl
    · have hresume : resume x key { m.withSource t with keypad } =
          ((resume x key { m with keypad }).1, (resume x key { m with keypad }).2.withSource t) :=
        resume_exchange id (fun _ => t) x key { m with keypad }
      simp only [hresume]
      rfl
  | running =>
    have hfetch : (m.withSource t).fetch = m.fetch := rfl
    rw [step_running hm, step_running (m := m.withSource t) hm, hfetch]
    cases hw : m.fetch with
    | error e => rfl
    | ok w =>
      simp only [execute_eq]
      cases hd : Instruction.decode? w with
      | none => rfl
      | some i =>
        have hfault : (m.withSource t).fault? i = m.fault? i := fault?_exchange _ _ m i
        cases hf : m.fault? i with
        | some e =>
          simp only [hfault, hf]
          rfl
        | none => cases hp.symm.trans (performed_of_fetch hm hw hd hf)

theorem step_withSource (h : AgreeOn m.rolls m.source t) :
    step (m.withSource t) = ((step m).1, (step m).2.withSource (drop t m.rolls)) := by
  cases hp : m.performed? with
  | none =>
    rw [rolls_of_not_performed hp]
    exact step_withSource_of_not_performed hp t
  | some i =>
    rw [rolls_of_performed hp] at h ⊢
    obtain ⟨hm, w, hw, hd⟩ := fetch_of_performed hp
    obtain ⟨-, hf, hs⟩ := step_of_performed hp
    have hpt : (m.withSource t).performed? = some i :=
      performed_of_fetch hm hw hd ((fault?_exchange _ _ m i).trans hf)
    rw [(step_of_performed hpt).2.2, hs, executed_withSource h]
    rfl

/-- Other instructions take no byte. -/
theorem rolls_of_not_random (h : ∀ x kk, m.performed? ≠ some (.random x kk)) : m.rolls = 0 := by
  cases hp : m.performed? with
  | none => exact rolls_of_not_performed hp
  | some i =>
    rw [rolls_of_performed hp]
    cases i with
    | random x kk => exact absurd hp (h x kk)
    | _ => rfl

theorem rolls_of_error {e : Fault} (he : (step m).1 = .error e) : m.rolls = 0 := by
  cases hp : m.performed? with
  | none => exact rolls_of_not_performed hp
  | some i =>
    rw [(step_of_performed hp).2.2] at he
    cases he

end Machine

/-! ## Consoles -/

namespace Console

open ByteSource (drop byte AgreeOn)

omit [ByteSource ρ] [ByteSource τ] in
def withSource (c : Console ρ) (source : τ) : Console τ :=
  { c with machine := c.machine.withSource source }

variable {c : Console ρ} {call : Call} {calls : List Call} {t : τ}

/-! ### Calls other than steps -/

section
omit [ByteSource ρ] [ByteSource τ]
variable (t : τ)

theorem load_withSource (rom : Array UInt8) (m : Machine HexPad ρ) :
    (m.withSource t).load rom = (m.load rom).map (·.withSource t) :=
  m.load_exchange id (fun _ => t) rom

theorem carries_changeKeypad (f : HexPad → Except Fault HexPad) :
    Action.Carries (fun c : Console ρ => c.withSource t)
      (.change fun c => (f c.machine.keypad).map c.withKeypad)
      (.change fun c => (f c.machine.keypad).map c.withKeypad) := by
  refine .change fun c => ?_
  have hkeypad : (c.withSource t).machine.keypad = c.machine.keypad := rfl
  rw [hkeypad]
  cases f c.machine.keypad with
  | ok keypad => rfl
  | error e => rfl

theorem carries_load (rom : Array UInt8) :
    Action.Carries (fun c : Console ρ => c.withSource t) (load rom) (load rom) := by
  refine .change fun c => ?_
  have hmachine : (c.withSource t).machine = c.machine.withSource t := rfl
  rw [hmachine, load_withSource]
  cases c.machine.load rom with
  | ok machine => rfl
  | error e => rfl

theorem carries_paceTimers :
    Action.Carries (fun c : Console ρ => c.withSource t) (.modify paceTimers)
      (.modify paceTimers) := by
  refine .modify fun c => ?_
  have hcounter : (c.withSource t).counter = c.counter := rfl
  rw [paceTimers, paceTimers, hcounter]
  split
  · rfl
  · rfl

theorem carries_reset : Action.Carries (fun c : Console ρ => c.withSource t) reset reset := by
  refine .bind (.modify fun c => rfl) fun _ => .bind (.change fun c => ?_) fun _ =>
    .modify fun c => rfl
  have hmachine : (c.withSource t).machine = c.machine.withSource t := rfl
  have hrom : (c.withSource t).rom = c.rom := rfl
  rw [hmachine, hrom, load_withSource]
  cases c.machine.load c.rom with
  | ok machine => rfl
  | error e => rfl

end

/-- Only steps ask for the source. -/
theorem carries_act (hcall : call ≠ .step) (t : τ) :
    Action.Carries (fun c : Console ρ => c.withSource t) (act call) (act call) := by
  cases call with
  | load rom => exact (carries_load t rom).bind fun _ => .pure _
  | step => exact absurd rfl hcall
  | paceTimers => exact (carries_paceTimers t).bind fun _ => .pure _
  | press key => exact (carries_changeKeypad t (·.press key)).bind fun _ => .pure _
  | release key => exact (carries_changeKeypad t (·.release key)).bind fun _ => .pure _
  | takeFrame => exact .bind (.modifyGet fun c => rfl) fun _ => .pure _
  | reset => exact (carries_reset t).bind fun _ => .pure _

/-! ### All calls -/

/-- How many `random`s a call performs. -/
def callRolls (c : Console ρ) : Call → Nat
  | .step => c.machine.rolls
  | _ => 0

theorem callRolls_of_ne_step (hcall : call ≠ .step) : c.callRolls call = 0 := by
  cases call with
  | step => exact absurd rfl hcall
  | _ => rfl

theorem callRolls_of_not_random
    (h : call = .step → ∀ x kk, c.machine.performed? ≠ some (.random x kk)) :
    c.callRolls call = 0 := by
  cases call with
  | step => exact Machine.rolls_of_not_random (h rfl)
  | _ => rfl

theorem callRolls_of_error {e : Fault} (he : (act call c).1 = .error e) :
    c.callRolls call = 0 := by
  cases call with
  | step =>
    rw [act_step] at he
    have hs : Machine.step c.machine = (.error e, _) :=
      Action.eq_error_of_map (x := Machine.step c.machine) (Prod.ext he rfl)
    exact Machine.rolls_of_error (congrArg Prod.fst hs)
  | _ => rfl

theorem source_act_of_ne_step (hcall : call ≠ .step) (c : Console ρ) :
    (act call c).2.machine.source = c.machine.source := by
  -- Over its own source the console is carried to itself.
  have hact : act call c = ((act call c).1, (act call c).2.withSource c.machine.source) :=
    carries_act hcall c.machine.source c
  exact congrArg (·.2.machine.source) hact

/-- A call takes a byte for each `random` it performs. -/
theorem source_act (c : Console ρ) (call : Call) :
    (act call c).2.machine.source = drop c.machine.source (c.callRolls call) := by
  by_cases hcall : call = .step
  · subst hcall
    rw [act_step]
    exact c.machine.source_step
  · rw [source_act_of_ne_step hcall, callRolls_of_ne_step hcall]
    rfl

theorem act_withSource (h : AgreeOn (c.callRolls call) c.machine.source t) :
    act call (c.withSource t) =
      ((act call c).1, (act call c).2.withSource (drop t (c.callRolls call))) := by
  by_cases hcall : call = .step
  · subst hcall
    have hstep := Machine.step_withSource h
    rw [act_step, act_step]
    show ((Machine.step (c.machine.withSource t)).1.map _, _) = _
    simp only [withSource, hstep]
    rfl
  · rw [callRolls_of_ne_step hcall]
    exact carries_act hcall t c

/-! ### Runs -/

/-- How many `random`s calls perform. -/
def rolls (c : Console ρ) : List Call → Nat
  | [] => 0
  | call :: calls => c.callRolls call + (act call c).2.rolls calls

theorem rolls_concat (c : Console ρ) (calls : List Call) (call : Call) :
    c.rolls (calls ++ [call]) = c.rolls calls + (runCalls act c calls).callRolls call := by
  induction calls generalizing c with
  | nil => exact Nat.add_comm _ 0
  | cons first calls ih => rw [List.cons_append, rolls, rolls, ih, runCalls_cons, Nat.add_assoc]

/-- A run takes a byte for each `random` it performs. -/
theorem source_runCalls (c : Console ρ) (calls : List Call) :
    (runCalls act c calls).machine.source = drop c.machine.source (c.rolls calls) := by
  induction calls generalizing c with
  | nil => rfl
  | cons call calls ih => rw [runCalls_cons, ih, source_act, rolls, ByteSource.drop_add]

/-- The position of a seeded stream counts the `random`s. -/
theorem source_seeded (seed : UInt64) (calls : List Call) :
    (runCalls act (fresh (KeyStream.ofSeed seed)) calls).machine.source =
      ⟨Seed.words seed 8, (fresh (KeyStream.ofSeed seed)).rolls calls⟩ := by
  rw [source_runCalls, KeyStream.drop_eq]
  exact congrArg (KeyStream.mk _) (Nat.zero_add _)

theorem runCalls_withSource (h : AgreeOn (c.rolls calls) c.machine.source t) :
    (c.withSource t).replies calls = c.replies calls ∧
      runCalls act (c.withSource t) calls =
        (runCalls act c calls).withSource (drop t (c.rolls calls)) := by
  induction calls generalizing c t with
  | nil => exact ⟨rfl, rfl⟩
  | cons call calls ih =>
    obtain ⟨hfirst, hrest⟩ := h.split
    rw [← source_act] at hrest
    obtain ⟨hreplies, hrun⟩ := ih hrest
    rw [replies, runCalls_cons, act_withSource hfirst, hreplies, hrun, rolls, ByteSource.drop_add]
    exact ⟨rfl, rfl⟩

/-- However a console is used, the bytes it took are the first of its stream, one for each `Cxkk`
it executed, and the next `Cxkk` stores the next of them, masked. No other step takes a byte, nor
does a call that fails or is no step. A console on a source that begins with the same bytes answers
alike and is left the same, but for its source; on a source of the same stream it goes on so, and
if no `Cxkk` was executed, on any source. -/
theorem random_bytes_used_in_order (source : ρ) (calls : List Call) :
    let c := runCalls act (fresh source) calls
    let n := (fresh source).rolls calls
    c.machine.source = drop source n ∧
    (runCalls act (fresh (CountedSource.mk source 0)) calls).machine.source.taken = n ∧
    (∀ x kk, c.machine.performed? = some (.random x kk) ↔ c.machine.mode = .running ∧
      ∃ w, c.machine.fetch = .ok w ∧ Opcode.family w = 0xC ∧ Opcode.x w = x ∧ Opcode.kk w = kk) ∧
    (∀ x kk, c.machine.performed? = some (.random x kk) →
      (act .step c).2.machine.registers.get x = .ok (byte source n &&& kk) ∧
      (act .step c).2.machine.source = drop source (n + 1)) ∧
    (∀ call, (call = .step → ∀ x kk, c.machine.performed? ≠ some (.random x kk)) →
      (act call c).2.machine.source = c.machine.source) ∧
    (∀ call e, (act call c).1 = .error e →
      (act call c).2.machine.source = c.machine.source) ∧
    (∀ (τ : Type) [ByteSource τ] (other : τ), AgreeOn n source other →
      (fresh other).replies calls = (fresh source).replies calls ∧
      runCalls act (fresh other) calls = c.withSource (drop other n)) ∧
    (∀ (τ : Type) [ByteSource τ] (other : τ), (∀ j, byte other j = byte source j) →
      (fresh other).replies calls = (fresh source).replies calls ∧
      runCalls act (fresh other) calls = c.withSource (drop other n) ∧
      ∀ j, byte (drop other n) j = byte (drop source n) j) ∧
    (n = 0 → ∀ (τ : Type) [ByteSource τ] (other : τ),
      (fresh other).replies calls = (fresh source).replies calls ∧
      runCalls act (fresh other) calls = c.withSource other) := by
  intro c n
  have hsource : c.machine.source = drop source n := source_runCalls (fresh source) calls
  have hother : ∀ (τ : Type) [ByteSource τ] (other : τ), AgreeOn n source other →
      (fresh other).replies calls = (fresh source).replies calls ∧
      runCalls act (fresh other) calls = c.withSource (drop other n) :=
    fun τ _ other h => runCalls_withSource (c := fresh source) h
  refine ⟨hsource, ?_, fun x kk => Machine.performed_random_iff, ?_, ?_, ?_, hother, ?_, ?_⟩
  · obtain ⟨-, hrun⟩ := hother _ (CountedSource.mk source 0) fun j _ => CountedSource.byte_eq _ j
    rw [hrun]
    show (drop (CountedSource.mk source 0) n).taken = n
    rw [CountedSource.drop_eq]
    exact Nat.zero_add n
  · intro x kk hp
    rw [act_step]
    refine ⟨?_, ?_⟩
    · have hbyte : byte c.machine.source 0 = byte source n := by rw [hsource]; rfl
      exact hbyte ▸ Machine.get_of_performed_random hp
    · show (Machine.step c.machine).2.source = drop source (n + 1)
      rw [Machine.source_step, Machine.rolls_of_performed hp, hsource]
      rfl
  · intro call hcall
    rw [source_act, callRolls_of_not_random hcall]
    rfl
  · intro call e he
    rw [source_act, callRolls_of_error he]
    rfl
  · intro τ _ other h
    obtain ⟨hreplies, hrun⟩ := hother τ other fun j _ => h j
    exact ⟨hreplies, hrun, fun j => by rw [ByteSource.byte_drop, ByteSource.byte_drop, h]⟩
  · intro hn τ _ other
    obtain ⟨hreplies, hrun⟩ := hother τ other fun j hj => by omega
    exact ⟨hreplies, by rw [hrun, hn]; rfl⟩

/-- `C3F0` takes the first byte; `00E0` behind it takes none, nor does a key `10`. The other source
differs from the second byte on, the counted one has the same stream. -/
theorem random_bytes_used_in_order_masked :
    let source := WordCycle.ofList [0xAB, 0xCD]
    let other := WordCycle.ofList [0xAB]
    let counted := CountedSource.mk source 7
    let loading := [.load #[0xC3, 0xF0, 0x00, 0xE0]]
    ∃ c d : Console WordCycle,
      runCalls act (fresh source) loading = c ∧
      runCalls act (fresh source) (loading ++ [.step]) = d ∧
      c.machine.performed? = some (.random 3 0xF0) ∧
      (act .step c).2.machine.registers.get 3 = .ok 0xA0 ∧ d.machine.source = drop source 1 ∧
      (∀ x kk, d.machine.performed? ≠ some (.random x kk)) ∧
      (act .step d).2.machine.source = d.machine.source ∧
      (act (.press 0x10) d).1 = .error (.noSuchKey 0x10) ∧
      (act (.press 0x10) d).2.machine.source = d.machine.source ∧
      AgreeOn 1 source other ∧ byte source 1 ≠ byte other 1 ∧
      runCalls act (fresh other) (loading ++ [.step]) = d.withSource (drop other 1) ∧
      (∀ j, byte counted j = byte source j) ∧
      runCalls act (fresh counted) (loading ++ [.step]) = d.withSource (drop counted 1) ∧
      (fresh source).rolls loading = 0 ∧
      runCalls act (fresh other) loading = c.withSource other := by
  intro source other counted loading
  have hcounted : ∀ j, byte counted j = byte source j := CountedSource.byte_eq counted
  have hagree : AgreeOn 1 source other := by
    intro j hj
    obtain rfl := Nat.lt_one_iff.mp hj
    rfl
  have hnone : (fresh source).rolls loading = 0 := rfl
  obtain ⟨-, -, -, randoms, -, -, -, -, anywhere⟩ := random_bytes_used_in_order source loading
  obtain ⟨hsource, -, -, -, others, failures, agrees, same, -⟩ :=
    random_bytes_used_in_order source (loading ++ [.step])
  -- Once they are named, the kernel does not compute the consoles.
  obtain ⟨c, hc⟩ : ∃ c, runCalls act (fresh source) loading = c := ⟨_, rfl⟩
  have hat : c.machine.At #[0xC3, 0xF0, 0x00, 0xE0] 0 := by
    rw [← hc]
    exact at_of_call_load source (by decide)
  have hp : c.machine.performed? = some (.random 3 0xF0) := hat.performed (by decide) rfl rfl
  have hone : (fresh source).rolls (loading ++ [.step]) = 1 := by
    rw [rolls_concat, hnone, hc, callRolls, Machine.rolls_of_performed hp]
    rfl
  obtain ⟨d, hd⟩ : ∃ d, runCalls act (fresh source) (loading ++ [.step]) = d := ⟨_, rfl⟩
  have hmachine : d.machine = c.machine.executed (.random 3 0xF0) := by
    rw [← hd, runCalls_concat, hc, act_step_of_performed hp]
  have hnext : d.machine.performed? = some .clear := by
    have hat' : d.machine.At #[0xC3, 0xF0, 0x00, 0xE0] 2 := by
      rw [hmachine]
      exact hat.next (by decide) hat.running rfl rfl
    exact hat'.performed (by decide) rfl rfl
  have hother : ∀ x kk, d.machine.performed? ≠ some (.random x kk) := by
    intro x kk hrandom
    cases hnext.symm.trans hrandom
  have hpress : (act (.press 0x10) d).1 = .error (.noSuchKey 0x10) := by
    rw [act_press, press_error (dif_neg (by decide))]
    rfl
  have hmasked : byte source 0 &&& 0xF0 = 0xA0 := by decide
  rw [hc, hnone] at randoms
  rw [hc] at anywhere
  rw [hd] at hsource others failures agrees same
  rw [hone] at hsource agrees same
  have hstored := (randoms 3 0xF0 hp).1
  rw [hmasked] at hstored
  exact ⟨c, d, hc, hd, hp, hstored, hsource, hother, others .step fun _ => hother, hpress,
    failures _ _ hpress, hagree, by decide, (agrees _ other hagree).2, hcounted,
    (same _ counted hcounted).2.1, hnone, (anywhere hnone _ other).2⟩

end Console

end Chip8
