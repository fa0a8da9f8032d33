import Chip8.Proofs.Calls
import Chip8.Proofs.Cells

/-!
# Checked operations

The machine once more, on operations that are not defined everywhere: sums and products that must
fit their word, differences that must not fall below zero, shifts by less than the width, cells and
slices that must lie inside their array. Where one of them is not defined there is no outcome at
all, not even a fault. Every function here is that of the same name outside this namespace with
its partial operations spelled out; those that have none are lifted as they are.
-/

namespace Chip8

/-- Actions some of whose operations may be undefined. -/
def Checked (σ α : Type) : Type := σ → Option (Except Fault α × σ)

namespace Checked

variable {σ α β : Type}

protected def pure (a : α) : Checked σ α := fun s => some (.ok a, s)

protected def bind (x : Checked σ α) (f : α → Checked σ β) : Checked σ β := fun s =>
  match x s with
  | some (.ok a, s) => f a s
  | some (.error e, s) => some (.error e, s)
  | none => none

instance : Monad (Checked σ) where
  pure := Checked.pure
  bind := Checked.bind

/-- An action without partial operations. -/
def lift (x : Action σ α) : Checked σ α := fun s => some (x s)

/-- The result of one partial operation. -/
def demand (a? : Option α) : Checked σ α := fun s => a?.map fun a => (.ok a, s)

def view (f : σ → Option (Except Fault α)) : Checked σ α := fun s => (f s).map fun a => (a, s)

def modify (f : σ → Option σ) : Checked σ Unit := fun s => (f s).map fun s => (.ok (), s)

def change (f : σ → Option (Except Fault σ)) : Checked σ Unit := fun s =>
  (f s).map fun
    | .ok s => (.ok (), s)
    | .error e => (.error e, s)

/-! ## Words and sizes -/

/-- Sizes and places have sixteen bits at least. -/
abbrev sizeLimit : Nat := 0x10000

def add? (a b : Nat) : Option Nat := if a + b < sizeLimit then some (a + b) else none

def sub? (a b : Nat) : Option Nat := if b ≤ a then some (a - b) else none

def addWord? (a b : UInt16) : Option UInt16 :=
  if a.toNat + b.toNat < UInt16.size then some (a + b) else none

def mulWord? (a b : UInt16) : Option UInt16 :=
  if a.toNat * b.toNat < UInt16.size then some (a * b) else none

def shiftRightByte? (b : UInt8) (k : Nat) : Option UInt8 :=
  if k < 8 then some (b >>> UInt8.ofNat k) else none

def shiftLeftByte? (b : UInt8) (k : Nat) : Option UInt8 :=
  if k < 8 then some (b <<< UInt8.ofNat k) else none

def shiftRightWord? (w : UInt16) (k : Nat) : Option UInt16 :=
  if k < 16 then some (w >>> UInt16.ofNat k) else none

def shiftLeftWord? (w : UInt16) (k : Nat) : Option UInt16 :=
  if k < 16 then some (w <<< UInt16.ofNat k) else none

/-! ## Arrays -/

def put? {n : Nat} (cells : Vector α n) (a : Nat) (value : α) : Option (Vector α n) :=
  if h : a < n then some (cells.set a value h) else none

/-- Copies a block over the slice from `a` to `stop`, which must be as long. -/
def copy? {n : Nat} (cells : Vector UInt8 n) (a stop : Nat) (block : List UInt8) :
    Option (Vector UInt8 n) :=
  if a ≤ stop ∧ stop ≤ n ∧ block.length = stop - a then some (overlay cells a block) else none

/-! ## Memory -/

/-- The font is copied over zeros. -/
def fresh : Option Memory := do
  return ⟨← copy? (Vector.replicate memorySize 0) 0 fontSheet.length fontSheet⟩

def readWord (m : Memory) (a : Nat) : Option (Except Fault UInt16) :=
  match m.read a with
  | .error e => some (.error e)
  | .ok high => do
    match m.read (← add? a 1) with
    | .error e => return .error e
    | .ok low => return .ok ((← shiftLeftWord? high.toUInt16 8) ||| low.toUInt16)

def slice (m : Memory) (a count : Nat) : Option (Except Fault (List UInt8)) := do
  let stop ← add? a count
  return if stop ≤ memorySize then .ok (m.bytes.extract a stop).toList
    else .error (.addressOutOfRange (stop - 1))

def write (m : Memory) (a : Nat) (b : UInt8) : Option (Except Fault Memory) :=
  if a < programStart ∨ programEnd < a then some (.error (.addressOutOfRange a))
  else do return .ok ⟨← put? m.bytes a b⟩

def load (m : Memory) (program : Array UInt8) : Option (Except Fault Memory) := do
  let max ← sub? memorySize programStart
  if max < program.size then return .error (.programTooLarge program.size max)
  else
    let stop ← add? programStart program.size
    return .ok ⟨← copy? m.bytes programStart stop program.toList⟩

def glyphAddress (digit : UInt8) : Option (Except Fault UInt16) :=
  if 0xF < digit then some (.error (.noSuchGlyph digit))
  else do return .ok (← mulWord? digit.toUInt16 (UInt16.ofNat glyphSize))

/-! ## The call stack -/

/-- Behind the newest frame, or at the first slot. -/
def place (s : CallStack) : Option Nat :=
  match s.top? with
  | none => some 0
  | some top => add? top 1

def push (s : CallStack) (a : UInt16) : Option (Option CallStack) := do
  let top ← place s
  if stackDepth ≤ top then return none
  else return some ⟨← put? s.slots top a, top + 1⟩

def pop (s : CallStack) : Option (Option (UInt16 × CallStack)) :=
  match s.top? with
  | none => some none
  | some top => do return some (← s.slots[top]?, { s with depth := top })

/-! ## The screen -/

/-- The pixel under one bit of a sprite row: read, combined with the bit and stored. -/
def strike (x y : Nat) (byte : UInt8) (hitAndScreen : Bool × Screen) (bit : Nat) :
    Option (Bool × Screen) := do
  let (hit, s) := hitAndScreen
  let column := (← add? x bit) % displayWidth
  let old ← s.get? column y
  let lit := (← shiftRightByte? byte (← sub? 7 bit)) &&& 1 == 1
  let new := old ^^ lit
  return (hit || old && !new, ← s.set? column y new)

def drawRow (x y : Nat) (byte : UInt8) (hitAndScreen : Bool × Screen) : Option (Bool × Screen) :=
  (List.range 8).foldlM (strike x y byte) hitAndScreen

def draw (s : Screen) (x y : Nat) (sprite : List UInt8) : Option (Bool × Screen) :=
  sprite.zipIdx.foldlM (fun hitAndScreen row => do
    drawRow x ((← add? y row.2) % displayHeight) row.1 hitAndScreen) (false, s)

/-! ## Parts of instructions -/

section
variable {κ ρ : Type}

def pushFrame : Checked (Machine κ ρ) Unit :=
  change fun m => do
    match ← push m.stack m.pc with
    | some stack => return .ok { m with stack }
    | none => return .error (.stackOverflow m.pc)

def popFrame : Checked (Machine κ ρ) UInt16 := fun m => do
  match ← pop m.stack with
  | some (a, stack) => return (.ok a, { m with stack })
  | none => return (.error (.stackUnderflow m.pc), m)

/-- A shift of `Vx`, whose bit that goes out is the flag. -/
def shift (x : UInt8) (out : Nat) (f : UInt8 → Option UInt8) : Checked (Machine κ ρ) Flow := do
  let b ← lift (Machine.register x)
  lift (Machine.setFlag (b.toNat.testBit out))
  lift (Machine.setRegister x (← demand (f b)))
  return .next

def drawSprite (x y : Nat) (sprite : List UInt8) : Checked (Machine κ ρ) Bool := fun m => do
  let (hit, screen) ← draw m.screen x y sprite
  return (.ok hit, { m with screen, redraw := true })

def block (count : Nat) : Checked (Machine κ ρ) Nat :=
  view fun m => do
    let last ← sub? (← add? m.index.toNat count) 1
    return if last < memorySize then .ok m.index.toNat else .error (.addressOutOfRange last)

/-- The block with a byte for each of `V0` to `Vx`. -/
def registerBlock (x : UInt8) : Checked (Machine κ ρ) Nat := do
  block (← demand (add? x.toNat 1))

/-- Writes bytes to the addresses `offset` and more behind `a`. -/
def writeBytes (a offset : Nat) : List UInt8 → Checked (Machine κ ρ) Unit
  | [] => pure ()
  | b :: bs => do
    let place ← demand (add? a offset)
    change fun m => do return (← write m.memory place b).map fun memory => { m with memory }
    writeBytes a (offset + 1) bs

def loadRegisters (a x : Nat) : (count : Nat) → Checked (Machine κ ρ) Unit
  | 0 => pure ()
  | count + 1 => do
    let b ← lift (Machine.readByte (← demand (add? a x)))
    lift (Machine.setRegister (UInt8.ofNat x) b)
    loadRegisters a (x + 1) count

end

/-! ## Instructions -/

section
variable {κ ρ : Type} [Keypad κ] [ByteSource ρ]

def perform : Instruction → Checked (Machine κ ρ) Flow
  | .ret => do return .jump ((← popFrame) + 2)
  | .call a => do
    pushFrame
    return .jump a
  | .shiftRight x => shift x 0 (shiftRightByte? · 1)
  | .shiftLeft x => shift x 7 (shiftLeftByte? · 1)
  | .jumpOffset a => do
    let b ← lift (Machine.register 0)
    return .jump (← demand (addWord? a b.toUInt16))
  | .draw x y n => do
    let vx ← lift (Machine.register x)
    let vy ← lift (Machine.register y)
    let sprite ← view fun m => slice m.memory m.index.toNat n.toNat
    let hit ← drawSprite (vx.toNat % displayWidth) (vy.toNat % displayHeight) sprite
    lift (Machine.setFlag hit)
    return .next
  | .addIndex x => do
    let b ← lift (Machine.register x)
    modify fun m => do
      let sum ← addWord? m.index b.toUInt16
      return { m with index := sum % UInt16.ofNat memorySize }
    return .next
  | .loadGlyph x => do
    let digit ← lift (Machine.register x)
    let a ← view fun _ => glyphAddress digit
    lift (Machine.setIndex a)
    return .next
  | .storeDecimal x => do
    let b ← lift (Machine.register x)
    let a ← block 3
    writeBytes a 0 (Machine.decimalDigits b)
    return .next
  | .storeRegisters x => do
    let a ← registerBlock x
    let bytes ← lift (.view fun m => m.registers.through x)
    writeBytes a 0 bytes
    return .next
  | .loadRegisters x => do
    let a ← registerBlock x
    loadRegisters a 0 (x.toNat + 1)
    return .next
  | i => lift (Machine.perform i)

/-- Family, `x`, `y` and `n`, shifted out of the word. -/
def nibbles (w : Opcode) : Option (UInt8 × UInt8 × UInt8 × UInt8) := do
  let family ← shiftRightWord? w 12
  let x ← shiftRightWord? w 8
  let y ← shiftRightWord? w 4
  return (family.toUInt8, (x &&& 0xF).toUInt8, (y &&& 0xF).toUInt8, (w &&& 0xF).toUInt8)

/-- The instruction of the nibbles; the low byte and the address are masked and not shifted. -/
def decode (w : Opcode) : Option (Except Fault Instruction) := do
  let (family, x, y, n) ← nibbles w
  match Instruction.ofFields? family x y n w.kk w.addr with
  | some i => return .ok i
  | none => return .error (.unknownInstruction w)

def execute (w : Opcode) : Checked (Machine κ ρ) Unit := do
  let i ← view fun _ => decode w
  let flow ← perform i
  lift (.modify fun m => { m with pc := flow.target m.pc })

def step : Checked (Machine κ ρ) Mode := do
  match ← lift (.view fun m => .ok m.mode) with
  | .awaitingKey x =>
    match ← lift Machine.nextPress with
    | some key => lift (Machine.resume x key)
    | none => pure ()
  | .running =>
    execute (← view fun m => readWord m.memory m.pc.toNat)
  lift (.view fun m => .ok m.mode)

end

/-! ## Loading and resetting -/

section
variable {κ ρ : Type}

def loadProgram (m : Machine κ ρ) (program : Array UInt8) :
    Option (Except Fault (Machine κ ρ)) := do
  return (← load m.memory program).map fun memory => { m with memory }

def resetMachine (m : Machine κ ρ) : Option (Machine κ ρ) := do
  return { m.reset with memory := ← fresh }

end

/-! ## Consoles -/

section
variable {ρ : Type}

def onMachine (x : Checked (Machine HexPad ρ) α) : Checked (Console ρ) α := fun c => do
  let (result, machine) ← x c.machine
  return (result, { c with machine })

def loadRom (rom : Array UInt8) : Checked (Console ρ) Unit :=
  change fun c => do return (← loadProgram c.machine rom).map fun machine => { c with machine, rom }

def paceTimers (c : Console ρ) : Option (Console ρ) :=
  if c.counter = 0 then some c.paceTimers
  else do return { c with counter := ← sub? c.counter 1 }

def resetConsole : Checked (Console ρ) Unit := do
  modify fun c => do return { c with machine := ← resetMachine c.machine }
  change fun c => do return (← loadProgram c.machine c.rom).map fun machine => { c with machine }
  lift (.modify fun c => { c with counter := 0 })

def act [ByteSource ρ] : Console.Call → Checked (Console ρ) Console.Reply
  | .load rom => do
    loadRom rom
    return .done
  | .step => do return .mode (← onMachine step)
  | .paceTimers => do
    modify paceTimers
    return .done
  | .reset => do
    resetConsole
    return .done
  | call => lift (Console.act call)

end

end Checked

end Chip8
