import Chip8.CommandLine.Settings
import Chip8.Random.KeyStream
import Chip8.Screen.Picture
import Chip8.Session

/-!
# Launching

From settings and a ROM image to what is printed: the picture of the last frame, if one was drawn,
also when the run fails after it.
-/

namespace Chip8

inductive LaunchFailure where
  | unreadable (path cause : String)
  | faulted (fault : Fault)
  deriving DecidableEq, Repr

/-- What failed, followed by its cause. -/
def LaunchFailure.chain : LaunchFailure → List String
  | unreadable path cause => [s!"unable to read ROM {path}", cause]
  | faulted fault => [fault.message]

structure Launch where
  output : String
  failure : Option LaunchFailure
  deriving DecidableEq, Repr

namespace Launch

open CommandLine (Settings)

/-- The session for an image that was read, or not. The seed counts if the settings have none. -/
def prepare (settings : Settings) (image : Except String (Array UInt8)) (seed : UInt64) :
    Except LaunchFailure (Session KeyStream) :=
  match image with
  | .error cause => .error (.unreadable settings.rom cause)
  | .ok rom =>
    match Console.load rom (Console.fresh (KeyStream.ofSeed (settings.seed.getD seed))) with
    | (.error fault, _) => .error (.faulted fault)
    | (.ok (), console) => .ok (.start console settings.keys)

/-- What a session leaves that ended. -/
def ofSession (final : Session KeyStream) (ending : Ending) : Launch where
  output := (final.frame.map fun s => s.picture .standard).getD ""
  failure := ending.fault?.map .faulted

def run (settings : Settings) (image : Except String (Array UInt8)) (seed : UInt64) : Launch :=
  match prepare settings image seed with
  | .error failure => ⟨"", some failure⟩
  | .ok s =>
    let (final, ending) := s.run settings.cycles
    ofSession final ending

/-- The events of a run. -/
def events (settings : Settings) (image : Except String (Array UInt8)) (seed : UInt64) :
    List Event :=
  match prepare settings image seed with
  | .error _ => []
  | .ok s =>
    let size := s.console.rom.size
    .loaded size :: .romRead size settings.rom :: s.runEvents settings.cycles

end Launch

end Chip8
