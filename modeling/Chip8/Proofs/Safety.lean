import Chip8.Proofs.Checked
import Chip8.Proofs.Invariant

/-!
# No operation leaves its range

On a machine that can be reached the checked operations are all defined, so the checked machine
does what the machine does. Two facts about the machine carry this, that the index is an address
and that the frames fit the call stack; one more about the instruction, that its operands come from
a word. All else holds of every machine.
-/

namespace Chip8

open Chip8.Action (runCalls)

/-- A view yields what it reads and leaves the state. -/
theorem Action.view_ok {σ α : Type} {f : σ → Except Fault α} {s t : σ} {a : α}
    (h : view f s = (.ok a, t)) : f s = .ok a ∧ t = s :=
  ⟨congrArg Prod.fst h, (congrArg Prod.snd h).symm⟩

theorem Memory.length_of_slice {m : Memory} {a count : Nat} {bytes : List UInt8}
    (h : m.slice a count = .ok bytes) : bytes.length = count := by
  rcases Nat.lt_or_ge memorySize (a + count) with hgt | hle
  · rw [slice_eq_error m hgt] at h
    cases h
  · rw [slice_eq m hle] at h
    cases h
    exact m.length_window count

theorem Registers.length_of_through {v : Registers} {x : UInt8} {bytes : List UInt8}
    (h : v.through x = .ok bytes) : bytes.length ≤ registerCount := by
  unfold through at h
  split at h
  · cases h
    rw [List.length_take, Vector.length_toList]
    exact Nat.min_le_right _ _
  · cases h

namespace Checked

variable {σ α β : Type} {s : σ}

/-! ## Sequences -/

/-- A sequence is defined when its first part is, and its second wherever the first leads. -/
theorem bind_eq {x : Checked σ α} {y : Action σ α} {f : α → Checked σ β} {g : α → Action σ β}
    (hx : x s = some (y s)) (hf : ∀ a t, y s = (.ok a, t) → f a t = some (g a t)) :
    (x >>= f) s = some ((y >>= g) s) := by
  show Checked.bind x f s = some (Action.bind y g s)
  rw [Checked.bind, Action.bind, hx]
  rcases hy : y s with ⟨e | a, t⟩
  · rfl
  · exact hf a t hy

theorem lift_bind_eq {y : Action σ α} {f : α → Checked σ β} {g : α → Action σ β}
    (hf : ∀ a t, y s = (.ok a, t) → f a t = some (g a t)) :
    (lift y >>= f) s = some ((y >>= g) s) :=
  bind_eq rfl hf

theorem demand_bind_eq {a? : Option α} {a : α} (f : α → Checked σ β) (h : a? = some a) :
    (demand a? >>= f) s = f a s := by
  rw [h]
  rfl

theorem view_eq {f : σ → Option (Except Fault α)} {g : σ → Except Fault α}
    (h : f s = some (g s)) : view f s = some (Action.view g s) := by
  rw [view, h]
  rfl

theorem modify_eq {f : σ → Option σ} {g : σ → σ} (h : f s = some (g s)) :
    modify f s = some (Action.modify g s) := by
  rw [modify, h]
  rfl

theorem change_eq {f : σ → Option (Except Fault σ)} {g : σ → Except Fault σ}
    (h : f s = some (g s)) : change f s = some (Action.change g s) := by
  rw [change, h, Action.change]
  cases g s with
  | ok t => rfl
  | error e => rfl

/-! ## Words and sizes -/

section
variable {a b k : Nat}

theorem add?_eq (h : a + b < sizeLimit) : add? a b = some (a + b) := if_pos h

theorem sub?_eq (h : b ≤ a) : sub? a b = some (a - b) := if_pos h

theorem addWord?_eq {a b : UInt16} (h : a.toNat + b.toNat < UInt16.size) :
    addWord? a b = some (a + b) := if_pos h

theorem shiftRightByte?_eq (b : UInt8) (h : k < 8) :
    shiftRightByte? b k = some (b >>> UInt8.ofNat k) := if_pos h

end

/-- The bit that a shift brings to the low end. -/
theorem shiftRight_and_one (b : UInt8) {k : Nat} (h : k < 8) :
    (b >>> UInt8.ofNat k &&& 1 == 1) = b.toNat.testBit k := by
  have hk : (UInt8.ofNat k).toNat = k := UInt8.toNat_ofNat_of_lt' (Nat.lt_trans h (by decide))
  have hlow : (b >>> UInt8.ofNat k &&& 1).toNat = b.toNat / 2 ^ k % 2 := by
    rw [UInt8.toNat_and, UInt8.toNat_shiftRight, hk, Nat.mod_eq_of_lt h,
      Nat.shiftRight_eq_div_pow]
    exact Nat.and_one_is_mod _
  rw [Nat.testBit_eq_decide_div_mod_eq, ← hlow, Bool.eq_iff_iff, beq_iff_eq, decide_eq_true_iff]
  exact UInt8.toNat_inj.symm

/-- A nibble shifted to the low end and masked. -/
theorem toUInt8_shiftRight_and (w : Opcode) {k : Nat} (h : k < 16) :
    (w >>> UInt16.ofNat k &&& 0xF).toUInt8 = w.nibble (1 <<< k) := by
  have hk : (UInt16.ofNat k).toNat = k := UInt16.toNat_ofNat_of_lt' (Nat.lt_trans h (by decide))
  rw [← UInt8.toNat_inj, Opcode.toNat_nibble, UInt16.toNat_toUInt8, UInt16.toNat_and,
    UInt16.toNat_shiftRight, hk, Nat.mod_eq_of_lt h, Nat.shiftRight_eq_div_pow, Nat.one_shiftLeft]
  show (w.toNat / 2 ^ k &&& 2 ^ 4 - 1) % 256 = _
  rw [Nat.and_two_pow_sub_one_eq_mod]
  omega

/-! ## Memory -/

theorem copy?_eq {n : Nat} (cells : Vector UInt8 n) {a : Nat} {block : List UInt8}
    (h : a + block.length ≤ n) :
    copy? cells a (a + block.length) block = some (overlay cells a block) :=
  if_pos ⟨Nat.le_add_right _ _, h, (Nat.add_sub_cancel_left _ _).symm⟩

theorem fresh_eq : fresh = some Memory.fresh := by
  have hfits : 0 + fontSheet.length ≤ memorySize := by decide
  have hbytes : overlay (Vector.replicate memorySize 0) 0 fontSheet = Memory.fresh.bytes := by
    ext a ha
    rw [getElem_overlay, if_pos (Nat.zero_le a), Nat.sub_zero, Vector.getElem_replicate]
    simp [Memory.fresh]
  have hcopy := copy?_eq (Vector.replicate memorySize 0) hfits
  rw [Nat.zero_add, hbytes] at hcopy
  rw [fresh, hcopy]
  rfl

theorem shiftLeft_or (high low : UInt8) :
    high.toUInt16 <<< (8 : UInt16) ||| low.toUInt16 =
      UInt16.ofNat (256 * high.toNat + low.toNat) := by
  have hhigh := high.toNat_lt
  have hlow := low.toNat_lt
  have hor : high.toNat <<< 8 ||| low.toNat = 256 * high.toNat + low.toNat := by
    rw [Nat.shiftLeft_eq, Nat.mul_comm]
    exact (Nat.two_pow_add_eq_or_of_lt (i := 8) hlow high.toNat).symm
  rw [← UInt16.toNat_inj, UInt16.toNat_or, UInt16.toNat_shiftLeft, UInt8.toNat_toUInt16,
    UInt8.toNat_toUInt16, UInt16.toNat_ofNat_of_lt' (by simp only [UInt16.size]; omega)]
  show high.toNat <<< 8 % 2 ^ 16 ||| low.toNat = _
  rw [Nat.mod_eq_of_lt (by rw [Nat.shiftLeft_eq]; omega), hor]

theorem readWord_eq (m : Memory) (a : Nat) : readWord m a = some (m.readWord a) := by
  unfold readWord Memory.readWord
  rcases Nat.lt_or_ge a memorySize with ha | ha
  · have hnext : add? a 1 = some (a + 1) :=
      add?_eq (Nat.lt_of_le_of_lt (Nat.succ_le_of_lt ha) (by decide))
    have hshift (high : UInt8) : shiftLeftWord? high.toUInt16 8 = some (high.toUInt16 <<< 8) := rfl
    rw [Memory.read_of_lt m ha]
    simp only [hnext, hshift, Option.bind_eq_bind, Option.bind_some]
    cases m.read (a + 1) with
    | error e => rfl
    | ok low => exact congrArg (fun word => some (Except.ok word)) (shiftLeft_or _ low)
  · rw [Memory.read_of_ge m ha]
    rfl

theorem slice_eq (m : Memory) {a count : Nat} (h : a + count < sizeLimit) :
    slice m a count = some (m.slice a count) := by
  rw [slice, add?_eq h]
  rfl

theorem write_eq (m : Memory) (a : Nat) (b : UInt8) : write m a b = some (m.write a b) := by
  unfold write Memory.write
  by_cases h : programStart ≤ a ∧ a ≤ programEnd
  · have hput : put? m.bytes a b = some (m.bytes.set a b (Nat.lt_succ_of_le h.2)) :=
      dif_pos (Nat.lt_succ_of_le h.2)
    rw [dif_pos h, if_neg (by omega), hput]
    rfl
  · rw [dif_neg h, if_pos (by omega)]

theorem load_eq (m : Memory) (program : Array UInt8) :
    load m program = some (m.load program) := by
  rw [load, sub?_eq (by decide)]
  show (if programCapacity < program.size then _ else _) = _
  by_cases h : program.size ≤ programCapacity
  · have hstop : programStart + program.size ≤ memorySize := by
      simp only [programStart, programCapacity, memorySize] at h ⊢
      omega
    have hcopy : copy? m.bytes programStart (programStart + program.size) program.toList =
        some (overlay m.bytes programStart program.toList) := copy?_eq m.bytes hstop
    rw [if_neg (Nat.not_lt.mpr h), add?_eq (Nat.lt_of_le_of_lt hstop (by decide)),
      Memory.load_eq m h]
    show (copy? _ _ _ _).bind _ = _
    rw [hcopy]
    rfl
  · rw [if_pos (Nat.lt_of_not_le h), Memory.load, if_neg h]
    rfl

theorem glyphAddress_eq (digit : UInt8) : glyphAddress digit = some (Chip8.glyphAddress digit) := by
  unfold glyphAddress Chip8.glyphAddress
  by_cases h : digit ≤ 0xF
  · have hle : digit.toNat ≤ 15 := UInt8.le_iff_toNat_le.mp h
    have hmul : mulWord? digit.toUInt16 (UInt16.ofNat glyphSize) =
        some (digit.toUInt16 * UInt16.ofNat glyphSize) := by
      refine if_pos ?_
      show digit.toNat * 5 < 65536
      omega
    have heq :
        digit.toUInt16 * UInt16.ofNat glyphSize = UInt16.ofNat (glyphSize * digit.toNat) := by
      rw [← UInt16.toNat_inj, UInt16.toNat_mul, UInt8.toNat_toUInt16, UInt16.toNat_ofNat',
        UInt16.toNat_ofNat', Nat.mul_comm]
      rfl
    rw [if_neg (UInt8.not_lt.mpr h), if_pos h, hmul, heq]
    rfl
  · rw [if_pos (UInt8.not_le.mp h), if_neg h]

/-! ## The call stack -/

theorem push_eq {s : CallStack} (h : s.depth ≤ stackDepth) (a : UInt16) :
    push s a = some (s.push? a) := by
  have hplace : place s = some s.depth := by
    unfold place
    cases htop : s.top? with
    | none => rw [CallStack.depth_of_top?_none htop]
    | some top =>
      rw [CallStack.depth_of_top?_some htop] at h ⊢
      exact add?_eq (Nat.lt_of_le_of_lt h (by decide))
  rw [push, hplace, CallStack.push?]
  show (if stackDepth ≤ s.depth then _ else _) = _
  by_cases hd : s.depth < stackDepth
  · have hput : put? s.slots s.depth a = some (s.slots.set s.depth a hd) := dif_pos hd
    rw [if_neg (Nat.not_le.mpr hd), dif_pos hd, hput]
    rfl
  · rw [if_pos (Nat.le_of_not_lt hd), dif_neg hd]
    rfl

theorem pop_eq {s : CallStack} (h : s.depth ≤ stackDepth) : pop s = some s.pop? := by
  unfold pop CallStack.pop?
  cases htop : s.top? with
  | none => rfl
  | some top =>
    have hlt : top < stackDepth := by
      rw [CallStack.depth_of_top?_some htop] at h
      exact h
    show (s.slots[top]?).bind _ = some ((s.slots[top]?).bind _)
    rw [Vector.getElem?_eq_getElem hlt]
    rfl

end Checked

/-! ## The screen -/

namespace Screen

theorem set_get (s : Screen) (x : Column) (y : Row) : s.set x y (s.get x y) = s := by
  rw [set, get]
  congr 1
  exact Vector.set_getElem_self _

theorem column_mod_add (x c : Nat) : column (x % displayWidth + c) = column (x + c) :=
  Fin.ext (Nat.mod_add_mod x displayWidth c)

theorem row_mod_add (y r : Nat) : row (y % displayHeight + r) = row (y + r) :=
  Fin.ext (Nat.mod_add_mod y displayHeight r)

/-- The struck columns of one row of a sprite. -/
def drawRow (x y : Nat) (byte : UInt8) (hitAndScreen : Bool × Screen) : Bool × Screen :=
  ((List.range 8).filter fun c => byte.toNat.testBit (7 - c)).foldl
    (fun acc c => strike acc (column (x + c)) (row y)) hitAndScreen

theorem zipIdx_eq_map_range (sprite : List UInt8) :
    sprite.zipIdx = (List.range sprite.length).map fun r => (sprite.getD r 0, r) := by
  apply List.ext_getElem
  · simp
  · intro r h1 h2
    have hr : r < sprite.length := by simpa using h1
    simp [List.getD_eq_getElem?_getD, hr]

/-- A sprite is drawn row by row. -/
theorem draw_eq_foldl (s : Screen) (x y : Nat) (sprite : List UInt8) :
    s.draw x y sprite =
      sprite.zipIdx.foldl (fun acc row => drawRow x (y + row.2) row.1 acc) (false, s) := by
  rw [draw, Sprite.cells, List.foldl_flatMap, zipIdx_eq_map_range, List.foldl_map]
  congr 1
  funext acc r
  rw [List.foldl_map]
  rfl

end Screen

namespace Checked

variable {α β : Type}

theorem foldlM_eq_foldl {l : List β} {f : α → β → Option α} {g : α → β → α}
    (h : ∀ a, ∀ b ∈ l, f a b = some (g a b)) (a : α) : l.foldlM f a = some (l.foldl g a) := by
  induction l generalizing a with
  | nil => rfl
  | cons b l ih =>
    rw [List.foldlM_cons, h a b List.mem_cons_self]
    exact ih (fun a c hc => h a c (List.mem_cons_of_mem b hc)) _

theorem strike_eq {x bit : Nat} (hx : x < displayWidth) (hbit : bit < 8) (y : Nat) (byte : UInt8)
    (hitAndScreen : Bool × Screen) :
    strike x (y % displayHeight) byte hitAndScreen bit =
      some (if byte.toNat.testBit (7 - bit) then
        Screen.strike hitAndScreen (Screen.column (x + bit)) (Screen.row y)
      else hitAndScreen) := by
  obtain ⟨hit, s⟩ := hitAndScreen
  have hadd : add? x bit = some (x + bit) := by
    refine add?_eq ?_
    simp only [displayWidth, sizeLimit] at hx ⊢
    omega
  have hsub : sub? 7 bit = some (7 - bit) := sub?_eq (Nat.le_of_lt_succ hbit)
  have hshift := shiftRightByte?_eq byte (k := 7 - bit) (by omega)
  have hin : (x + bit) % displayWidth < displayWidth ∧ y % displayHeight < displayHeight :=
    ⟨Nat.mod_lt _ (by decide), Nat.mod_lt _ (by decide)⟩
  have hget : s.get? ((x + bit) % displayWidth) (y % displayHeight) =
      some (s.get (Screen.column (x + bit)) (Screen.row y)) := dif_pos hin
  have hset (lit : Bool) : s.set? ((x + bit) % displayWidth) (y % displayHeight) lit =
      some (s.set (Screen.column (x + bit)) (Screen.row y) lit) := dif_pos hin
  simp only [strike, hadd, hsub, hshift, hget, hset, Option.bind_eq_bind, Option.bind_some,
    Option.pure_def, shiftRight_and_one byte (show 7 - bit < 8 by omega)]
  split
  · rename_i hlit
    simp [hlit, Screen.strike, Screen.flip]
  · rename_i hlit
    simp [hlit, Screen.set_get]

theorem drawRow_eq {x : Nat} (hx : x < displayWidth) (y : Nat) (byte : UInt8)
    (hitAndScreen : Bool × Screen) :
    drawRow x (y % displayHeight) byte hitAndScreen =
      some (Screen.drawRow x y byte hitAndScreen) := by
  rw [drawRow, Screen.drawRow, List.foldl_filter]
  exact foldlM_eq_foldl (fun acc bit hbit => strike_eq hx (List.mem_range.mp hbit) y byte acc) _

theorem draw_eq (s : Screen) (x y : Nat) {sprite : List UInt8}
    (h : displayHeight + sprite.length ≤ sizeLimit) :
    draw s (x % displayWidth) (y % displayHeight) sprite = some (s.draw x y sprite) := by
  rw [Screen.draw_eq_foldl]
  refine foldlM_eq_foldl (fun acc row hrow => ?_) _
  have hx : x % displayWidth < displayWidth := Nat.mod_lt _ (by decide)
  have hy : y % displayHeight < displayHeight := Nat.mod_lt _ (by decide)
  have hr : row.2 < sprite.length := (List.mem_zipIdx' hrow).1
  have hadd : add? (y % displayHeight) row.2 = some (y % displayHeight + row.2) :=
    add?_eq (by omega)
  rw [hadd]
  refine (drawRow_eq hx _ row.1 acc).trans ?_
  simp only [Screen.drawRow, Screen.column_mod_add, Screen.row_mod_add]

/-! ## Parts of instructions -/

section
variable {κ ρ : Type} {m t : Machine κ ρ}

theorem pushFrame_eq (h : m.stack.depth ≤ stackDepth) :
    pushFrame m = some (Machine.pushFrame m) := by
  refine change_eq ?_
  rw [push_eq h]
  cases m.stack.push? m.pc with
  | none => rfl
  | some stack => rfl

theorem popFrame_eq (h : m.stack.depth ≤ stackDepth) : popFrame m = some (Machine.popFrame m) := by
  unfold popFrame Machine.popFrame
  rw [pop_eq h]
  cases m.stack.pop? with
  | none => rfl
  | some frame => rfl

theorem shift_eq {x : UInt8} {out : Nat} {f? : UInt8 → Option UInt8} {f : UInt8 → UInt8}
    (hf : ∀ b, f? b = some (f b)) :
    shift x out f? m =
      some (Machine.combineFlagged x x (fun a _ => a.toNat.testBit out) (fun a _ => f a) m) := by
  refine lift_bind_eq fun b t hb => ?_
  obtain ⟨-, rfl⟩ := Action.view_ok hb
  -- Where the shift reads `Vx` once, arithmetic on `Vx` and `Vx` reads it twice.
  rw [Action.bind_apply_ok hb]
  refine lift_bind_eq fun _ t _ => ?_
  refine (demand_bind_eq _ (hf b)).trans ?_
  exact lift_bind_eq fun _ _ _ => rfl

theorem drawSprite_eq (x y : Nat) {sprite : List UInt8}
    (h : displayHeight + sprite.length ≤ sizeLimit) :
    drawSprite (x % displayWidth) (y % displayHeight) sprite m =
      some (Machine.drawSprite x y sprite m) := by
  rw [drawSprite, draw_eq m.screen x y h]
  rfl

theorem block_eq {count : Nat} (hpos : 0 < count) (h : m.index.toNat + count < sizeLimit) :
    block count m = some (Machine.block count m) := by
  refine view_eq ?_
  rw [add?_eq h]
  show (sub? (m.index.toNat + count) 1).bind _ = _
  rw [sub?_eq (Nat.le_add_left_of_le hpos)]
  rfl

theorem block_ok {count a : Nat} (h : Machine.block count m = (.ok a, t)) :
    a = m.index.toNat ∧ t = m := by
  obtain ⟨hblock, ht⟩ := Action.view_ok h
  refine ⟨?_, ht⟩
  dsimp only at hblock
  split at hblock
  · cases hblock
    rfl
  · cases hblock

theorem index_add_lt (hindex : m.index.toNat < memorySize) {count : Nat} (h : count ≤ 256) :
    m.index.toNat + count < sizeLimit :=
  Nat.lt_of_lt_of_le (Nat.add_lt_add_of_lt_of_le hindex h) (by decide)

theorem registerBlock_eq (x : UInt8) (hindex : m.index.toNat < memorySize) :
    registerBlock x m = some (Machine.block (x.toNat + 1) m) := by
  have hx : x.toNat + 1 ≤ 256 := x.toNat_lt
  refine (demand_bind_eq _ (add?_eq (Nat.lt_of_le_of_lt hx (by decide)))).trans ?_
  exact block_eq (Nat.succ_pos _) (index_add_lt hindex hx)

theorem writeBytes_eq {a offset : Nat} {bytes : List UInt8}
    (h : a + offset + bytes.length < sizeLimit) :
    writeBytes a offset bytes m = some (Machine.writeBytes (a + offset) bytes m) := by
  induction bytes generalizing offset m with
  | nil => rfl
  | cons b bytes ih =>
    rw [List.length_cons] at h
    refine (demand_bind_eq _ (add?_eq (by omega))).trans ?_
    refine bind_eq (change_eq ?_) fun _ t _ => ih (by omega)
    rw [write_eq]
    rfl

theorem loadRegisters_eq {a x count : Nat} (h : a + x + count < sizeLimit) :
    loadRegisters a x count m = some (Machine.loadRegisters (a + x) x count m) := by
  induction count generalizing x m with
  | zero => rfl
  | succ count ih =>
    refine (demand_bind_eq _ (add?_eq (by omega))).trans ?_
    refine lift_bind_eq fun b t _ => ?_
    exact lift_bind_eq fun _ t _ => ih (by omega)

end

/-! ## Instructions -/

section
variable {κ ρ : Type} [Keypad κ] [ByteSource ρ] {m : Machine κ ρ}

theorem perform_eq {i : Instruction} (hi : i.WellFormed) (hindex : m.index.toNat < memorySize)
    (hdepth : m.stack.depth ≤ stackDepth) : perform i m = some (Machine.perform i m) := by
  cases i with
  | ret => exact bind_eq (popFrame_eq hdepth) fun _ _ _ => rfl
  | call a => exact bind_eq (pushFrame_eq hdepth) fun _ _ _ => rfl
  | shiftRight x => exact shift_eq fun _ => rfl
  | shiftLeft x => exact shift_eq fun _ => rfl
  | jumpOffset a =>
    refine lift_bind_eq fun b t _ => ?_
    have ha : a.toNat < 0x1000 := hi (.address a) (by simp [Instruction.operands])
    have hb := b.toNat_lt
    refine demand_bind_eq _ (addWord?_eq ?_)
    rw [UInt8.toNat_toUInt16]
    simp only [UInt16.size]
    omega
  | draw x y n =>
    have hn := Nat.le_of_lt n.toNat_lt
    refine lift_bind_eq fun vx t hx => ?_
    obtain ⟨-, rfl⟩ := Action.view_ok hx
    refine lift_bind_eq fun vy t hy => ?_
    obtain ⟨-, rfl⟩ := Action.view_ok hy
    refine bind_eq (view_eq (slice_eq t.memory (index_add_lt hindex hn))) fun sprite t hs => ?_
    obtain ⟨hs, rfl⟩ := Action.view_ok hs
    have hlength : sprite.length ≤ 256 := Memory.length_of_slice hs ▸ hn
    have hrows : displayHeight + sprite.length ≤ sizeLimit :=
      Nat.le_trans (Nat.add_le_add_left hlength displayHeight) (by decide)
    exact bind_eq (drawSprite_eq _ _ hrows) fun _ _ _ => rfl
  | addIndex x =>
    refine lift_bind_eq fun b t hx => ?_
    obtain ⟨-, rfl⟩ := Action.view_ok hx
    have hsum : addWord? t.index b.toUInt16 = some (t.index + b.toUInt16) := by
      refine addWord?_eq ?_
      rw [UInt8.toNat_toUInt16]
      exact index_add_lt hindex (Nat.le_of_lt b.toNat_lt)
    refine bind_eq (modify_eq ?_) fun _ _ _ => rfl
    rw [hsum]
    rfl
  | loadGlyph x =>
    refine lift_bind_eq fun digit t _ => ?_
    exact bind_eq (view_eq (glyphAddress_eq digit)) fun _ _ _ => rfl
  | storeDecimal x =>
    refine lift_bind_eq fun b t hx => ?_
    obtain ⟨-, rfl⟩ := Action.view_ok hx
    have hlt : t.index.toNat + 3 < sizeLimit := index_add_lt hindex (by decide)
    refine bind_eq (block_eq (by decide) hlt) fun a t ha => ?_
    obtain ⟨rfl, rfl⟩ := block_ok ha
    exact bind_eq (writeBytes_eq hlt) fun _ _ _ => rfl
  | storeRegisters x =>
    refine bind_eq (registerBlock_eq x hindex) fun a t ha => ?_
    obtain ⟨rfl, rfl⟩ := block_ok ha
    refine lift_bind_eq fun bytes t hb => ?_
    obtain ⟨hb, rfl⟩ := Action.view_ok hb
    have hlength : bytes.length ≤ 256 := Nat.le_trans (Registers.length_of_through hb) (by decide)
    exact bind_eq (writeBytes_eq (index_add_lt hindex hlength)) fun _ _ _ => rfl
  | loadRegisters x =>
    refine bind_eq (registerBlock_eq x hindex) fun a t ha => ?_
    obtain ⟨rfl, rfl⟩ := block_ok ha
    exact bind_eq (loadRegisters_eq (index_add_lt hindex x.toNat_lt)) fun _ _ _ => rfl
  | _ => rfl

/-! ## Opcodes and steps -/

omit [Keypad κ] [ByteSource ρ] in
theorem nibbles_eq (w : Opcode) : nibbles w = some (w.family, w.x, w.y, w.n) := by
  have hw := w.toNat_lt
  have hfamily : (w >>> 12).toUInt8 = w.family := by
    rw [← UInt8.toNat_inj, Opcode.family, Opcode.toNat_nibble, UInt16.toNat_toUInt8,
      UInt16.toNat_shiftRight, Nat.shiftRight_eq_div_pow]
    show w.toNat / 4096 % 256 = w.toNat / 4096 % 16
    omega
  have hx : (w >>> 8 &&& 0xF).toUInt8 = w.x := toUInt8_shiftRight_and w (k := 8) (by decide)
  have hy : (w >>> 4 &&& 0xF).toUInt8 = w.y := toUInt8_shiftRight_and w (k := 4) (by decide)
  have hn : (w >>> 0 &&& 0xF).toUInt8 = w.n := toUInt8_shiftRight_and w (k := 0) (by decide)
  rw [UInt16.shiftRight_zero] at hn
  rw [← hfamily, ← hx, ← hy, ← hn]
  rfl

omit [Keypad κ] [ByteSource ρ] in
theorem decode_eq (w : Opcode) : decode w = some (Instruction.decode w) := by
  rw [decode, nibbles_eq, Instruction.decode, Instruction.decode?]
  simp only [Option.bind_eq_bind, Option.bind_some]
  cases Instruction.ofFields? w.family w.x w.y w.n w.kk w.addr with
  | some i => rfl
  | none => rfl

theorem execute_eq (w : Opcode) (hindex : m.index.toNat < memorySize)
    (hdepth : m.stack.depth ≤ stackDepth) : execute w m = some (Machine.execute w m) := by
  refine bind_eq (view_eq (decode_eq w)) fun i t hi => ?_
  obtain ⟨hd, rfl⟩ := Action.view_ok hi
  have hformed := Instruction.wellFormed_of_decode? (Instruction.decode_eq_ok_iff.mp hd)
  exact bind_eq (perform_eq hformed hindex hdepth) fun _ _ _ => rfl

theorem step_eq (hindex : m.index.toNat < memorySize) (hdepth : m.stack.depth ≤ stackDepth) :
    step m = some (Machine.step m) := by
  refine lift_bind_eq fun mode t hm => ?_
  obtain ⟨hm, rfl⟩ := Action.view_ok hm
  cases mode with
  | awaitingKey x =>
    refine lift_bind_eq fun press t _ => ?_
    cases press with
    | none => rfl
    | some key => exact lift_bind_eq fun _ _ _ => rfl
  | running =>
    refine bind_eq (view_eq (readWord_eq t.memory _)) fun w t hw => ?_
    obtain ⟨-, rfl⟩ := Action.view_ok hw
    exact bind_eq (execute_eq w hindex hdepth) fun _ _ _ => rfl

omit [Keypad κ] [ByteSource ρ] in
theorem loadProgram_eq (m : Machine κ ρ) (program : Array UInt8) :
    loadProgram m program = some (m.load program) := by
  rw [loadProgram, load_eq]
  rfl

omit [Keypad κ] [ByteSource ρ] in
theorem resetMachine_eq (m : Machine κ ρ) : resetMachine m = some m.reset := by
  rw [resetMachine, fresh_eq]
  rfl

end

/-! ## Consoles -/

section
variable {ρ : Type} {c : Console ρ}

theorem onMachine_eq {x : Checked (Machine HexPad ρ) α} {y : Action (Machine HexPad ρ) α}
    (h : x c.machine = some (y c.machine)) : onMachine x c = some (Console.onMachine y c) := by
  rw [onMachine, h]
  rfl

theorem loadRom_eq (rom : Array UInt8) : loadRom rom c = some (Console.load rom c) := by
  refine change_eq ?_
  rw [loadProgram_eq]
  rfl

theorem paceTimers_eq : paceTimers c = some c.paceTimers := by
  unfold paceTimers Console.paceTimers
  by_cases h : c.counter = 0
  · rw [if_pos h]
  · rw [if_neg h, if_neg h, sub?_eq (Nat.pos_of_ne_zero h)]
    rfl

theorem resetConsole_eq : resetConsole c = some (Console.reset c) := by
  refine bind_eq (modify_eq ?_) fun _ c _ => bind_eq (change_eq ?_) fun _ _ _ => rfl
  · rw [resetMachine_eq]
    rfl
  · rw [loadProgram_eq]
    rfl

theorem act_eq [ByteSource ρ] (hindex : c.machine.index.toNat < memorySize)
    (hdepth : c.machine.stack.depth ≤ stackDepth) (call : Console.Call) :
    act call c = some (Console.act call c) := by
  cases call with
  | step => exact bind_eq (onMachine_eq (step_eq hindex hdepth)) fun _ _ _ => rfl
  | paceTimers => exact bind_eq (modify_eq paceTimers_eq) fun _ _ _ => rfl
  | load rom => exact bind_eq (loadRom_eq rom) fun _ _ _ => rfl
  | reset => exact bind_eq resetConsole_eq fun _ _ _ => rfl
  | press | release | takeFrame => rfl

end

/-! ## Reachable states -/

/-- Whatever was loaded, executed, pressed and counted down before, on any keypad and from any
source: no operation of the next call leaves its range. -/
theorem defined_on_reachable {κ ρ : Type} [Keypad κ] [ByteSource ρ] :
    (∀ m : Machine κ ρ, m.Reachable →
      (∀ w, execute w m = some (Machine.execute w m)) ∧
      step m = some (Machine.step m) ∧
      (∀ program, loadProgram m program = some (m.load program)) ∧
      resetMachine m = some m.reset) ∧
    ∀ (source : ρ) (calls : List Console.Call) (call : Console.Call),
      let c := runCalls Console.act (Console.fresh source) calls
      act call c = some (Console.act call c) := by
  refine ⟨fun m hm => ?_, fun source calls call => ?_⟩
  · obtain ⟨hindex, hdepth, -, -⟩ := hm.wellFormed
    refine ⟨fun w => execute_eq w hindex hdepth, step_eq hindex hdepth, ?_, ?_⟩
    · exact loadProgram_eq m
    · exact resetMachine_eq m
  · have hreached := (Machine.Reachable.fresh HexPad.idle source).console (c := .fresh source) calls
    exact act_eq hreached.wellFormed.index_lt hreached.wellFormed.depth_le call

/-- The index and `V0` at their ends, sixteen frames, and the counter at one. On an index that is
no address the sum in `F01E` is not defined. -/
theorem defined_on_reachable_at_ends :
    let m := runCalls Machine.act (Machine.fresh HexPad.idle (WordCycle.ofList []))
      [.execute 0xAFFF, .execute 0x60FF]
    let full := runCalls Machine.act m (List.replicate 16 (.execute 0x2300))
    let c := runCalls Console.act (Console.fresh (WordCycle.ofList []))
      (List.replicate 8 .paceTimers)
    execute 0xF01E m = some (Machine.execute 0xF01E m) ∧
    execute 0xF01E { m with index := 0xFFFF } = none ∧
    execute 0x2300 full = some (Machine.execute 0x2300 full) ∧
    act .paceTimers c = some (Console.act .paceTimers c) := by
  intro m full c
  have hm : m.Reachable := (Machine.Reachable.fresh _ _).runCalls _
  obtain ⟨machines, consoles⟩ := defined_on_reachable (κ := HexPad) (ρ := WordCycle)
  refine ⟨(machines m hm).1 0xF01E, rfl, (machines full (hm.runCalls _)).1 0x2300, ?_⟩
  exact consoles (WordCycle.ofList []) (List.replicate 8 .paceTimers) .paceTimers

end Checked

end Chip8
