import Chip8.CommandLine.Reader
import Chip8.Launch

/-!
# The program

Reads the command line and the ROM file, runs the session and prints the last frame. Without
`--fast-forward` each cycle takes at least the length of a clock cycle.
-/

namespace Chip8.Program

open CommandLine (Settings)

/-- Runs a session by the clock. -/
def runPaced : (budget : Nat) → Session KeyStream → IO (Session KeyStream × Ending)
  | 0, s => return (s, .spent)
  | budget + 1, s => do
    let began ← IO.monoNanosNow
    match s.cycle with
    | (s, some ending) => return (s, ending)
    | (s, none) =>
      let spent := (← IO.monoNanosNow) - began
      IO.sleep (UInt32.ofNat ((cycleNanoseconds - spent) / 1000000))
      runPaced budget s

def readRom (path : String) : IO (Except String (Array UInt8)) := do
  try
    return .ok (← IO.FS.readBinFile path).data
  catch e =>
    return .error (toString e)

def entropy : IO UInt64 := do
  let bytes ← IO.getRandomBytes 8
  return bytes.data.foldl (fun seed b => seed * 256 + b.toUInt64) 0

def usage : String :=
  "Runs a Chip-8 ROM headless and prints the final frame\n\n" ++
  "Usage: chip8 [OPTIONS] <ROM>\n\n" ++
  "  -c, --cycles <CYCLES>  Number of CPU cycles to run [default: 2000]\n" ++
  "  -s, --seed <SEED>      Seed for the random number generator\n" ++
  "  -k, --keys <KEYS>      Hex keys to press, one per key wait (e.g. 1,A,F)\n" ++
  "  -f, --fast-forward     Ignore the default clock speed\n" ++
  "  -h, --help             Print help\n" ++
  "  -V, --version          Print version\n"

def runSettings (settings : Settings) : IO UInt32 := do
  let launched ←
    match Launch.prepare settings (← readRom settings.rom) (← entropy) with
    | .error failure => pure ⟨"", some failure⟩
    | .ok s =>
      if settings.fastForward then
        let (final, ending) := s.run settings.cycles
        pure (Launch.ofSession final ending)
      else
        let (final, ending) ← runPaced settings.cycles s
        pure (Launch.ofSession final ending)
  IO.print launched.output
  match launched.failure with
  | none => return 0
  | some failure =>
    IO.eprintln ("Error: " ++ ": ".intercalate failure.chain)
    return 1

/-- The exit code: 0, 1 after a failure, 2 for a command line that cannot be read. -/
def runWords (words : List String) : IO UInt32 := do
  match CommandLine.read words with
  | .ok settings => runSettings settings
  | .error .helpWanted => IO.print usage; return 0
  | .error .versionWanted => IO.println "chip8 0.1.0"; return 0
  | .error refusal =>
    IO.eprintln s!"error: {refusal.message}"
    return refusal.exitCode.toUInt32

end Chip8.Program

def main (words : List String) : IO UInt32 := Chip8.Program.runWords words
