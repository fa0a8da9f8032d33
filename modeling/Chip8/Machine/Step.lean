import Chip8.Instruction.Decode
import Chip8.Machine.Perform

/-!
# Executing and stepping

`execute` runs one opcode, `step` one cycle: a fetched opcode while running, a poll of the keypad
while a key is awaited. The program counter moves only when all else succeeded.
-/

namespace Chip8.Machine

variable {κ ρ : Type} [Keypad κ] [ByteSource ρ]

def execute (w : Opcode) : Action (Machine κ ρ) Unit := do
  let i ← .view fun _ => Instruction.decode w
  let flow ← perform i
  .modify fun m => { m with pc := flow.target m.pc }

def nextPress : Action (Machine κ ρ) (Option UInt8) :=
  .modifyGet fun m =>
    let (press, keypad) := Keypad.nextPress m.keypad
    (press, { m with keypad })

/-- Ends a wait: stores the key and passes the waiting instruction. -/
def resume (x key : UInt8) : Action (Machine κ ρ) Unit :=
  if key ≤ 0xF then do
    setRegister x key
    .modify fun m => { m with pc := m.pc + 2, mode := .running }
  else .fail (.noSuchKey key)

def step : Action (Machine κ ρ) Mode := do
  match ← .view fun m => .ok m.mode with
  | .awaitingKey x =>
    match ← nextPress with
    | some key => resume x key
    | none => pure ()
  | .running =>
    execute (← .view fetch)
  .view fun m => .ok m.mode

end Chip8.Machine
