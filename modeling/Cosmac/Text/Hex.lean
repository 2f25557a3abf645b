/-!
# Hexadecimal numerals

Numerals of a fixed number of digits. A number with more digits than there is room for loses the
high ones, so callers print words of a known width.
-/

namespace Cosmac.Hex

/-- The letters that stand for the values ten to fifteen. -/
inductive Case where
  | lower
  | upper
  deriving DecidableEq, Repr

/-- The character of one digit. -/
def digit (c : Case) (d : Nat) : Char :=
  if d < 10 then Char.ofNat (48 + d)
  else match c with
    | .lower => Char.ofNat (87 + d)
    | .upper => Char.ofNat (55 + d)

/-- The last `width` digits of `n`, leading zeros included. -/
def digits (c : Case) : (width n : Nat) → List Char
  | 0, _ => []
  | width + 1, n => digits c width (n / 16) ++ [digit c (n % 16)]

/-- The numeral of `width` digits with capital letters. -/
def upper (width n : Nat) : String :=
  String.ofList (digits .upper width n)

/-- The numeral of `width` digits with small letters. -/
def lower (width n : Nat) : String :=
  String.ofList (digits .lower width n)

/-- The value of a digit in either case. -/
def value? (c : Char) : Option Nat :=
  let n := c.toNat
  if 48 ≤ n ∧ n ≤ 57 then some (n - 48)
  else if 97 ≤ n ∧ n ≤ 102 then some (n - 87)
  else if 65 ≤ n ∧ n ≤ 70 then some (n - 55)
  else none

end Cosmac.Hex
