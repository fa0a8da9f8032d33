/-!
# Sources of random bytes

A source yields a byte and its successor. `ByteSource.byte s j` is the byte that the source `s`
yields after `j` others.
-/

namespace Chip8

class ByteSource (ρ : Type) where
  next : ρ → UInt8 × ρ

namespace ByteSource

variable {ρ : Type} [ByteSource ρ]

/-- The source after `n` bytes were taken. -/
def drop (s : ρ) : Nat → ρ
  | 0 => s
  | n + 1 => (next (drop s n)).2

/-- Byte `j` of the stream, counted from 0. -/
def byte (s : ρ) (j : Nat) : UInt8 := (next (drop s j)).1

/-- The first `n` bytes, and the source after them. -/
def take (s : ρ) : Nat → List UInt8 × ρ
  | 0 => ([], s)
  | n + 1 =>
    let (b, s) := next s
    let (bs, s) := take s n
    (b :: bs, s)

end ByteSource

/-! ## Repeated words -/

/-- Yields the low bytes of a list of words over and over; an empty list yields zeros. -/
structure WordCycle where
  words : List UInt32
  /-- What is left of the current round. -/
  rest : List UInt32
  deriving DecidableEq, Repr, Inhabited

namespace WordCycle

def ofList (words : List UInt32) : WordCycle := ⟨words, words⟩

instance : ByteSource WordCycle where
  next s :=
    match s.rest with
    | w :: rest => (w.toUInt8, { s with rest })
    | [] =>
      match s.words with
      | w :: rest => (w.toUInt8, { s with rest })
      | [] => (0, s)

end WordCycle

end Chip8
