import Cosmac.Number.Binary64

/-!
# Shortest decimal text

The decimal that stands for a double-precision number is the one with the fewest digits among those
that round to it, and of several with equally many digits the nearest. The search goes through
grids of one digit, two digits and so on up to seventeen; on each grid only the two neighbours of
the number can qualify.
-/

namespace Cosmac

/-- The decimal number `digits · 10 ^ exponent`. -/
structure Decimal where
  digits : Nat
  exponent : Int
  deriving DecidableEq, Repr

namespace Decimal

/-- The positive rational `num / den`. -/
structure Ratio where
  num : Nat
  den : Nat

namespace Ratio

/-- The number `n · b ^ e`. -/
def scaled (n b : Nat) (e : Int) : Ratio :=
  if 0 ≤ e then ⟨n * b.pow e.toNat, 1⟩ else ⟨n, b.pow (-e).toNat⟩

/-- The first number is less than the second. -/
def lt (a b : Ratio) : Bool := a.num * b.den < b.num * a.den

/-- The first number is not greater than the second. -/
def le (a b : Ratio) : Bool := a.num * b.den ≤ b.num * a.den

/-- The whole part of `a / b`. -/
def div (a b : Ratio) : Nat := a.num * b.den / (b.num * a.den)

/-- The distance of two numbers. -/
def dist (a b : Ratio) : Ratio :=
  ⟨(max (a.num * b.den) (b.num * a.den)) - min (a.num * b.den) (b.num * a.den), a.den * b.den⟩

end Ratio

/-- The numbers that round to a given one: all between two ends, which belong to them or not. -/
structure Interval where
  low : Ratio
  high : Ratio
  closed : Bool

/-- The numbers that round to `m · 2 ^ q`. Below a power of two the next number is nearer. -/
def Interval.around (m : Nat) (q : Int) : Interval :=
  let below := if m = Binary64.twoTo Binary64.fractionBits ∧ Binary64.minExponent < q then 1 else 2
  ⟨.scaled (4 * m - below) 2 (q - 2), .scaled (4 * m + 2) 2 (q - 2), m % 2 = 0⟩

/-- The number lies between the ends, or on one that belongs to the interval. -/
def Interval.contains (i : Interval) (x : Ratio) : Bool :=
  if i.closed then i.low.le x && x.le i.high else i.low.lt x && x.lt i.high

/-- The exponent of the leading decimal digit of a positive number, found by trying one power of ten
after another. -/
def leadingExponent (x : Ratio) : Int :=
  if x.den ≤ x.num then (Nat.toDigits 10 (x.num / x.den)).length - 1
  else
    let places := (List.range 400).find? (fun j => x.den ≤ x.num * Nat.pow 10 j)
    0 - (places.getD 0 : Int)

/-- The point of the grid of step `10 ^ e` that stands for `x`, if one of the two neighbours of `x`
lies in the interval: the nearer one, and in a tie the even one. -/
def gridPoint? (i : Interval) (x : Ratio) (e : Int) : Option Decimal :=
  let lower := x.div (.scaled 1 10 e)
  let point (d : Nat) : Ratio := .scaled d 10 e
  let hits := [lower, lower + 1].filter fun d => i.contains (point d)
  match hits with
  | [a, b] =>
    let da := (point a).dist x
    let db := (point b).dist x
    some ⟨if da.lt db then a else if db.lt da then b else if a % 2 = 0 then a else b, e⟩
  | [a] => some ⟨a, e⟩
  | _ => none

/-- Drops zeros from the end of the digits. -/
def normalize (d : Decimal) : Decimal :=
  if h : d.digits ≠ 0 ∧ d.digits % 10 = 0 then
    normalize ⟨d.digits / 10, d.exponent + 1⟩
  else d
termination_by d.digits
decreasing_by exact Nat.div_lt_self (Nat.pos_of_ne_zero h.1) (by decide)

/-- The shortest decimal of the positive number `m · 2 ^ q`. -/
def shortest (m : Nat) (q : Int) : Decimal :=
  let x := Ratio.scaled m 2 q
  let i := Interval.around m q
  let top := leadingExponent x
  let found := (List.range 17).findSome? fun n : Nat => gridPoint? i x (top - n)
  (found.getD ⟨0, 0⟩).normalize

end Decimal

end Cosmac
