import Chip8.Screen.Picture

/-!
# Rendering

A sink takes bytes up to a capacity: a write beyond it is cut short, and a full sink takes nothing.
Rendering writes the whole picture, write after write, and then flushes; it fails when a write
takes nothing while bytes are left.
-/

namespace Chip8

structure Sink where
  capacity : Nat
  bytes : List UInt8
  flushes : Nat
  deriving DecidableEq

/-- A write took nothing. -/
inductive SinkFailure where
  | stalled
  deriving DecidableEq, Repr

def SinkFailure.message : SinkFailure → String
  | stalled => "failed to write whole buffer"

namespace Sink

def empty (capacity : Nat) : Sink := ⟨capacity, [], 0⟩

/-- The bytes that one write takes. -/
def room (s : Sink) : Nat := s.capacity - s.bytes.length

def write (s : Sink) (chunk : List UInt8) : Nat × Sink :=
  let taken := chunk.take s.room
  (taken.length, { s with bytes := s.bytes ++ taken })

def writeAll (s : Sink) (chunk : List UInt8) : Except SinkFailure Unit × Sink :=
  match chunk with
  | [] => (.ok (), s)
  | b :: rest =>
    match s.write (b :: rest) with
    | (0, s) => (.error .stalled, s)
    | (n + 1, s) => writeAll s (rest.drop n)
termination_by chunk.length
decreasing_by simp only [List.length_drop, List.length_cons]; omega

def flush (s : Sink) : Sink := { s with flushes := s.flushes + 1 }

def render (s : Sink) (g : Glyphs) (screen : Screen) : Except SinkFailure Unit × Sink :=
  match s.writeAll (screen.picture g).toUTF8.toList with
  | (.ok (), s) => (.ok (), s.flush)
  | (.error e, s) => (.error e, s)

/-- Renders up to `n` times and stops at the first failure. -/
def renderTimes (s : Sink) (g : Glyphs) (screen : Screen) : Nat → Except SinkFailure Unit × Sink
  | 0 => (.ok (), s)
  | n + 1 =>
    match s.render g screen with
    | (.ok (), s) => renderTimes s g screen n
    | (.error e, s) => (.error e, s)

end Sink

end Chip8
