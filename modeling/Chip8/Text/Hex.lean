/-!
# Hexadecimal numerals

Numbers written in base sixteen, most significant digit first, in upper or lower case and padded
with zeros to a least width. A number wider than the width keeps all its digits.
-/

namespace Chip8.Hex

inductive Case where
  | upper
  | lower
  deriving DecidableEq, Repr

/-- The digit of a value below sixteen. -/
def digit (case : Case) (n : Nat) : Char :=
  if n < 10 then Char.ofNat (48 + n)
  else match case with
    | .upper => Char.ofNat (55 + n)
    | .lower => Char.ofNat (87 + n)

/-- The shortest numeral of `n`; zero has one digit. -/
def digits (case : Case) (n : Nat) : List Char :=
  if n < 16 then [digit case n] else digits case (n / 16) ++ [digit case (n % 16)]
termination_by n
decreasing_by omega

/-- The numeral of `n` with zeros in front up to `width` digits. -/
def padded (case : Case) (width n : Nat) : List Char :=
  (digits case n).leftpad width '0'

/-- Upper-case digits behind no marker. -/
def upper (width n : Nat) : String := String.ofList (padded .upper width n)

/-- Upper-case digits behind the marker `0x`. -/
def marked (width n : Nat) : String := "0x" ++ upper width n

/-- Two lower-case digits for each byte. -/
def ofBytes (bytes : List UInt8) : String :=
  String.ofList (bytes.flatMap fun b => padded .lower 2 b.toNat)

/-- The value of a digit of either case. -/
def value? (c : Char) : Option Nat :=
  if '0' ≤ c ∧ c ≤ '9' then some (c.toNat - 48)
  else if 'a' ≤ c ∧ c ≤ 'f' then some (c.toNat - 87)
  else if 'A' ≤ c ∧ c ≤ 'F' then some (c.toNat - 55)
  else none

theorem value?_digit (case : Case) {n : Nat} (h : n < 16) : value? (digit case n) = some n := by
  have : ∀ m < 16, value? (digit .upper m) = some m ∧ value? (digit .lower m) = some m := by decide
  cases case
  · exact (this n h).1
  · exact (this n h).2

theorem digits_ne_nil (case : Case) (n : Nat) : digits case n ≠ [] := by
  unfold digits; split <;> simp

end Chip8.Hex
