import Chip8.Keypad.Recorded
import Chip8.Main
import Chip8.Screen.Sink
import Chip8.Shelf
import Chip8.Proofs.Cells
import Chip8.Proofs.Operands
import Chip8.Proofs.Effect
import Chip8.Proofs.Perform
import Chip8.Proofs.Stepping
import Chip8.Proofs.Calls
import Chip8.Proofs.Moves
import Chip8.Proofs.Invariant
import Chip8.Proofs.Programs
import Chip8.Proofs.Reset
import Chip8.Proofs.Atomicity
import Chip8.Proofs.KeyWait
import Chip8.Proofs.Cycles
import Chip8.Proofs.Frames
import Chip8.Proofs.Feeding
import Chip8.Proofs.Table
import Chip8.Proofs.Nesting
import Chip8.Proofs.Faults
import Chip8.Proofs.Checked
import Chip8.Proofs.Safety
import Chip8.Proofs.Counter
import Chip8.Proofs.Hidden
import Chip8.Proofs.Watching
import Chip8.Proofs.Persistence
import Chip8.Proofs.Budgets
import Chip8.Proofs.Queries
import Chip8.Proofs.RandomBytes
import Chip8.Proofs.Timers
import Chip8.Proofs.Footprint
import Chip8.Proofs.Untimed
import Chip8.Proofs.Sprites
import Chip8.Proofs.Drawing
import Chip8.Proofs.Arithmetic
import Chip8.Proofs.LitPixels
import Chip8.Proofs.Stamps
import Chip8.Proofs.RegisterBlocks
import Chip8.Proofs.Cadence
import Chip8.Proofs.Store
import Chip8.Proofs.KeyTexts
import Chip8.Proofs.KeyLists
import Chip8.Proofs.KeyHistory
import Chip8.Proofs.Pictures
import Chip8.Proofs.Rendering
import Chip8.Proofs.Encoding
import Chip8.Proofs.Assembly
