/-!
# Binary64 numbers, exactly

A finite double-precision number is `m · 2 ^ q` for whole numbers `m` and `q`. This module reads a
`Float` as such a pair and rounds a quotient of natural numbers to the nearest `Float`, a tie going
to the even neighbour, so that the conversions of the program can be reasoned about in whole
numbers.
-/

namespace Cosmac

/-- The whole number nearest to `num / den`; a half goes to the even neighbour. -/
def roundHalfEven (num den : Nat) : Nat :=
  let q := num / den
  let r := num % den
  if 2 * r < den then q
  else if den < 2 * r then q + 1
  else q + q % 2

/-- A double-precision number taken apart. -/
inductive Binary64 where
  | nan
  | infinite (negative : Bool)
  /-- The number `m · 2 ^ q` with its sign. -/
  | finite (negative : Bool) (m : Nat) (q : Int)
  deriving DecidableEq, Repr

namespace Binary64

/-- The least exponent of a finite number. -/
def minExponent : Int := -1074

/-- The number of bits of the significand below the leading one. -/
def fractionBits : Nat := 52

/-- A power of two. -/
def twoTo (k : Nat) : Nat :=
  Nat.pow 2 k

/-- Takes a number apart. -/
def ofFloat (x : Float) : Binary64 :=
  let bits : Nat := x.toBits.toNat
  let negative : Bool := twoTo 63 ≤ bits
  let field : Nat := bits / twoTo fractionBits % twoTo 11
  let fraction : Nat := bits % twoTo fractionBits
  if field = 2047 then if fraction = 0 then infinite negative else nan
  else if field = 0 then finite negative fraction minExponent
  else finite negative (twoTo fractionBits + fraction) (minExponent + (field : Int) - 1)

/-- The number nearest to `m · 2 ^ e`, where `m` has at most 53 bits and fewer only for the least
exponent: a significand of 54 bits carries into the exponent, and an exponent past the greatest one
gives infinity. -/
def pack (negative : Bool) (m : Nat) (e : Int) : Float :=
  let magnitude := min ((e - minExponent).toNat * twoTo fractionBits + m) (2047 * twoTo fractionBits)
  Float.ofBits (UInt64.ofNat (magnitude + if negative then twoTo 63 else 0))

/-- The exponent at which `num / den` has 53 bits before the point, or the least one. -/
def exponentOf (num den : Nat) : Int :=
  let guess : Int := (num.log2 : Int) - den.log2 - fractionBits
  let fits : Bool :=
    if 0 ≤ guess then den * twoTo fractionBits * twoTo guess.toNat ≤ num
    else den * twoTo fractionBits ≤ num * twoTo (-guess).toNat
  max minExponent (if fits then guess else guess - 1)

/-- The number nearest to `num / den`, for a positive `den`. -/
def ofRatio (negative : Bool) (num den : Nat) : Float :=
  if num = 0 then pack negative 0 minExponent
  else
    let e := exponentOf num den
    let m :=
      if 0 ≤ e then roundHalfEven num (den * twoTo e.toNat)
      else roundHalfEven (num * twoTo (-e).toNat) den
    pack negative m e

/-- The number nearest to a whole number; infinite if that is out of range. -/
def ofInt (n : Int) : Float :=
  ofRatio (decide (n < 0)) n.natAbs 1

/-- The whole number nearest to a magnitude `m · 2 ^ q`. -/
def roundMagnitude (m : Nat) (q : Int) : Nat :=
  if 0 ≤ q then m * twoTo q.toNat else roundHalfEven m (twoTo (-q).toNat)

/-- The whole part of a magnitude `m · 2 ^ q`. -/
def truncateMagnitude (m : Nat) (q : Int) : Nat :=
  if 0 ≤ q then m * twoTo q.toNat else m / twoTo (-q).toNat

/-- A number with a sign. -/
def signed (negative : Bool) (n : Nat) : Int :=
  if negative then -(n : Int) else n

end Binary64

end Cosmac
