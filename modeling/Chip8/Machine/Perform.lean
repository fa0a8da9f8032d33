import Chip8.Action
import Chip8.Instruction.Basic
import Chip8.Keypad.Basic
import Chip8.Machine.Basic
import Chip8.Random.Source
import Chip8.Screen.Sprite

/-!
# Performing instructions

`Machine.perform` does what an instruction says, short of moving the program counter, and yields
where the counter goes. Where an instruction sets `VF` and `Vx`, `VF` comes first: with `x = F` the
flag is overwritten.
-/

namespace Chip8

/-- Where the program counter goes. -/
inductive Flow where
  | next
  | skip
  | jump (a : UInt16)
  | hold
  deriving DecidableEq, Repr

namespace Flow

def skipIf (condition : Bool) : Flow := if condition then .skip else .next

/-- The new program counter; it wraps at 16 bits. -/
def target : Flow → UInt16 → UInt16
  | next, pc => pc + 2
  | skip, pc => pc + 4
  | jump a, _ => a
  | hold, pc => pc

end Flow

namespace Machine

variable {κ ρ : Type}

/-! ## Parts -/

def register (x : UInt8) : Action (Machine κ ρ) UInt8 := .view fun m => m.registers.get x

def setRegister (x b : UInt8) : Action (Machine κ ρ) Unit :=
  .change fun m => (m.registers.set x b).map fun registers => { m with registers }

def setFlag (on : Bool) : Action (Machine κ ρ) Unit :=
  .modify fun m => { m with registers := m.registers.setFlag on }

def setIndex (a : UInt16) : Action (Machine κ ρ) Unit := .modify fun m => { m with index := a }

def readByte (a : Nat) : Action (Machine κ ρ) UInt8 := .view fun m => m.memory.read a

def writeByte (a : Nat) (b : UInt8) : Action (Machine κ ρ) Unit :=
  .change fun m => (m.memory.write a b).map fun memory => { m with memory }

/-- Writes bytes to addresses from `a` on, in order. -/
def writeBytes (a : Nat) : List UInt8 → Action (Machine κ ρ) Unit
  | [] => pure ()
  | b :: bs => do
    writeByte a b
    writeBytes (a + 1) bs

/-- Loads registers `x`, `x + 1`, … from addresses `a`, `a + 1`, …, `count` of them. -/
def loadRegisters (a x : Nat) : (count : Nat) → Action (Machine κ ρ) Unit
  | 0 => pure ()
  | count + 1 => do
    setRegister (UInt8.ofNat x) (← readByte a)
    loadRegisters (a + 1) (x + 1) count

/-- The start of the block of `count` bytes at the index register, if memory has all of it. -/
def block (count : Nat) : Action (Machine κ ρ) Nat :=
  .view fun m =>
    let last := m.index.toNat + count - 1
    if last < memorySize then .ok m.index.toNat else .error (.addressOutOfRange last)

/-- The key a register names. -/
def keyIn (x : UInt8) : Action (Machine κ ρ) UInt8 := do
  let key ← register x
  if key ≤ 0xF then return key else .fail (.noSuchKey key)

def isKeyDown [Keypad κ] (key : UInt8) : Action (Machine κ ρ) Bool :=
  .modifyGet fun m =>
    let (down, keypad) := Keypad.isDown m.keypad key
    (down, { m with keypad })

def randomByte [ByteSource ρ] : Action (Machine κ ρ) UInt8 :=
  .modifyGet fun m =>
    let (b, source) := ByteSource.next m.source
    (b, { m with source })

def drawSprite (x y : Nat) (sprite : List UInt8) : Action (Machine κ ρ) Bool :=
  .modifyGet fun m =>
    let (hit, screen) := m.screen.draw x y sprite
    (hit, { m with screen, redraw := true })

def pushFrame : Action (Machine κ ρ) Unit :=
  .change fun m =>
    match m.stack.push? m.pc with
    | some stack => .ok { m with stack }
    | none => .error (.stackOverflow m.pc)

/-- The address of the call that the newest frame stands for. -/
def popFrame : Action (Machine κ ρ) UInt16 := fun m =>
  match m.stack.pop? with
  | some (a, stack) => (.ok a, { m with stack })
  | none => (.error (.stackUnderflow m.pc), m)

/-- Hundreds, tens and ones. -/
def decimalDigits (b : UInt8) : List UInt8 := [b / 100, b / 10 % 10, b % 10]

/-! ## Instructions -/

/-- `Vx := f Vx Vy` -/
def combine (x y : UInt8) (f : UInt8 → UInt8 → UInt8) : Action (Machine κ ρ) Flow := do
  let a ← register x
  let b ← register y
  setRegister x (f a b)
  return .next

/-- `VF := flag Vx Vy`, then `Vx := f Vx Vy` on the operands from before. -/
def combineFlagged (x y : UInt8) (flag : UInt8 → UInt8 → Bool) (f : UInt8 → UInt8 → UInt8) :
    Action (Machine κ ρ) Flow := do
  let a ← register x
  let b ← register y
  setFlag (flag a b)
  setRegister x (f a b)
  return .next

def perform [Keypad κ] [ByteSource ρ] : Instruction → Action (Machine κ ρ) Flow
  | .clear => do
    .modify fun m => { m with screen := .blank, redraw := true }
    return .next
  | .ret => do return .jump ((← popFrame) + 2)
  | .sys _ => return .next
  | .jump a => return .jump a
  | .call a => do
    pushFrame
    return .jump a
  | .skipEqualByte x kk => do return .skipIf ((← register x) == kk)
  | .skipUnequalByte x kk => do return .skipIf ((← register x) != kk)
  | .skipEqual x y => do return .skipIf ((← register x) == (← register y))
  | .skipUnequal x y => do return .skipIf ((← register x) != (← register y))
  | .loadByte x kk => do
    setRegister x kk
    return .next
  | .addByte x kk => do
    setRegister x ((← register x) + kk)
    return .next
  | .move x y => do
    setRegister x (← register y)
    return .next
  | .or x y => combine x y (· ||| ·)
  | .and x y => combine x y (· &&& ·)
  | .xor x y => combine x y (· ^^^ ·)
  | .add x y => combineFlagged x y (fun a b => a.toNat + b.toNat > 255) (· + ·)
  | .sub x y => combineFlagged x y (fun a b => a > b) (· - ·)
  | .subFrom x y => combineFlagged x y (fun a b => b > a) (fun a b => b - a)
  | .shiftRight x => combineFlagged x x (fun a _ => a.toNat.testBit 0) (fun a _ => a >>> 1)
  | .shiftLeft x => combineFlagged x x (fun a _ => a.toNat.testBit 7) (fun a _ => a <<< 1)
  | .loadIndex a => do
    setIndex a
    return .next
  | .jumpOffset a => do return .jump (a + (← register 0).toUInt16)
  | .random x kk => do
    let b ← randomByte
    setRegister x (b &&& kk)
    return .next
  | .draw x y n => do
    let vx ← register x
    let vy ← register y
    let sprite ← .view fun m => m.memory.slice m.index.toNat n.toNat
    setFlag (← drawSprite vx.toNat vy.toNat sprite)
    return .next
  | .skipKeyDown x => do return .skipIf (← isKeyDown (← keyIn x))
  | .skipKeyUp x => do return .skipIf !(← isKeyDown (← keyIn x))
  | .loadDelay x => do
    setRegister x (← .view fun m => .ok m.delay.value)
    return .next
  | .awaitKey x => do
    let _ ← register x
    .modify fun m => { m with keypad := Keypad.forgetPresses m.keypad, mode := .awaitingKey x }
    return .hold
  | .setDelay x => do
    let b ← register x
    .modify fun m => { m with delay := ⟨b⟩ }
    return .next
  | .setSound x => do
    let b ← register x
    .modify fun m => { m with sound := ⟨b⟩ }
    return .next
  | .addIndex x => do
    let b ← register x
    .modify fun m => { m with index := (m.index + b.toUInt16) % UInt16.ofNat memorySize }
    return .next
  | .loadGlyph x => do
    let digit ← register x
    setIndex (← .view fun _ => glyphAddress digit)
    return .next
  | .storeDecimal x => do
    let b ← register x
    writeBytes (← block 3) (decimalDigits b)
    return .next
  | .storeRegisters x => do
    let a ← block (x.toNat + 1)
    writeBytes a (← .view fun m => m.registers.through x)
    return .next
  | .loadRegisters x => do
    loadRegisters (← block (x.toNat + 1)) 0 (x.toNat + 1)
    return .next

end Machine

end Chip8
