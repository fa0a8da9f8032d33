import Chip8.Random.Source

/-!
# The seeded stream

A byte is the low byte of a 32-bit word of a ChaCha stream with twelve rounds. Word `j` is word
`j % 16` of the block with counter `j / 16`, so the stream is a function of its key and a position.
The key is expanded from a 64-bit seed by a congruential generator with permuted output.
-/

namespace Chip8

namespace ChaCha

abbrev Block := Vector UInt32 16

def rotateLeft (w : UInt32) (n : UInt32) : UInt32 := (w <<< n) ||| (w >>> (32 - n))

/-- The quarter round on the words at four places. -/
def quarterRound (s : Block) (a b c d : Fin 16) : Block :=
  let s := s.set a (s[a] + s[b])
  let s := s.set d (rotateLeft (s[d] ^^^ s[a]) 16)
  let s := s.set c (s[c] + s[d])
  let s := s.set b (rotateLeft (s[b] ^^^ s[c]) 12)
  let s := s.set a (s[a] + s[b])
  let s := s.set d (rotateLeft (s[d] ^^^ s[a]) 8)
  let s := s.set c (s[c] + s[d])
  s.set b (rotateLeft (s[b] ^^^ s[c]) 7)

/-- Four quarter rounds on the columns, then four on the diagonals. -/
def doubleRound (s : Block) : Block :=
  let s := quarterRound s 0 4 8 12
  let s := quarterRound s 1 5 9 13
  let s := quarterRound s 2 6 10 14
  let s := quarterRound s 3 7 11 15
  let s := quarterRound s 0 5 10 15
  let s := quarterRound s 1 6 11 12
  let s := quarterRound s 2 7 8 13
  quarterRound s 3 4 9 14

def doubleRounds : Nat → Block → Block
  | 0, s => s
  | n + 1, s => doubleRounds n (doubleRound s)

/-- Four constant words, the key, the counter in two words, and a zero nonce. -/
def initial (key : Vector UInt32 8) (counter : UInt64) : Block :=
  (#v[0x61707865, 0x3320646E, 0x79622D32, 0x6B206574] : Vector UInt32 4) ++ key
    ++ (#v[counter.toUInt32, (counter >>> 32).toUInt32, 0, 0] : Vector UInt32 4)

def block (key : Vector UInt32 8) (counter : UInt64) : Block :=
  let start := initial key counter
  Vector.zipWith (· + ·) (doubleRounds 6 start) start

end ChaCha

/-! ## Keys from seeds -/

namespace Seed

def advance (state : UInt64) : UInt64 := state * 6364136223846793005 + 11634580027462260723

/-- The word a state of the generator puts out. -/
def output (state : UInt64) : UInt32 :=
  let x := (((state >>> 18) ^^^ state) >>> 27).toUInt32
  let r := (state >>> 59).toUInt32
  (x >>> r) ||| (x <<< (32 - r))

/-- The outputs of the next `n` states. -/
def words (seed : UInt64) : (n : Nat) → Vector UInt32 n
  | 0 => #v[]
  | n + 1 => words seed n |>.push (output (Nat.repeat advance (n + 1) seed))

end Seed

/-! ## The stream -/

structure KeyStream where
  key : Vector UInt32 8
  /-- How many words were taken. -/
  position : Nat
  deriving DecidableEq

namespace KeyStream

def ofSeed (seed : UInt64) : KeyStream := ⟨Seed.words seed 8, 0⟩

instance : Inhabited KeyStream := ⟨ofSeed 0⟩

/-- Word `j` of the stream of a key. -/
def word (key : Vector UInt32 8) (j : Nat) : UInt32 :=
  (ChaCha.block key (UInt64.ofNat (j / 16)))[Fin.ofNat 16 j]

instance : ByteSource KeyStream where
  next s := ((word s.key s.position).toUInt8, { s with position := s.position + 1 })

end KeyStream

end Chip8
