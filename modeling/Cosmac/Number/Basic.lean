import Cosmac.Number.Shortest

/-!
# Numbers

A number of the program's input is whole and of any size, or it is a double-precision number; `1`
and `1.0` are different inputs and are shown differently. A double is shown by its shortest decimal:
positional for exponents from `-4` to `15`, always with a point, and with an exponent of at least
two digits otherwise.
-/

namespace Cosmac

/-- A whole or a double-precision number. -/
inductive Number where
  | int (n : Int)
  | float (x : Float)
  deriving DecidableEq, Repr

namespace Number

/-- Where the positional form ends. -/
structure Layout where
  /-- The number of places before the point from which on the exponent form is used. -/
  maxPlaces : Int
  /-- The number of places before the point down to which the exponent form is used. -/
  minPlaces : Int
  /-- The least number of digits of an exponent. -/
  exponentWidth : Nat

/-- The layout of numbers in messages. -/
def layout : Layout := ⟨16, -4, 2⟩

/-- A string of zeros. -/
def zeros (n : Nat) : String :=
  String.ofList (List.replicate n '0')

/-- The text of a positive decimal. -/
def decimalText (l : Layout) (d : Decimal) : String :=
  let digits := Nat.toDigits 10 d.digits
  let places : Int := digits.length + d.exponent
  if l.maxPlaces < places ∨ places ≤ l.minPlaces then
    let mantissa := match digits with
      | first :: [] => String.ofList [first]
      | first :: rest => String.ofList (first :: '.' :: rest)
      | [] => ""
    let exponent := places - 1
    let size := toString exponent.natAbs
    mantissa ++ "e" ++ (if exponent < 0 then "-" else "+") ++
      zeros (l.exponentWidth - size.length) ++ size
  else if places ≤ 0 then
    "0." ++ zeros (-places).toNat ++ String.ofList digits
  else if digits.length ≤ places then
    String.ofList digits ++ zeros (places.toNat - digits.length) ++ ".0"
  else
    String.ofList (digits.take places.toNat) ++ "." ++ String.ofList (digits.drop places.toNat)

/-- The text of a double-precision number. -/
def floatText (x : Float) : String :=
  match Binary64.ofFloat x with
  | .nan => "nan"
  | .infinite negative => if negative then "-inf" else "inf"
  | .finite negative m q =>
    (if negative then "-" else "") ++
      if m = 0 then "0.0" else decimalText layout (Decimal.shortest m q)

/-- The number as messages show it. -/
def text : Number → String
  | int n => toString n
  | float x => floatText x

/-- The double-precision number that a decimal numeral stands for. The numeral is `digits`, of which
there are `length`, times a power of ten; one that is far out of range is not written out. -/
def ofDecimal (negative : Bool) (digits length : Nat) (exponent : Int) : Float :=
  let places := length + exponent
  if digits = 0 ∨ places < -400 then Binary64.ofRatio negative 0 1
  else if 400 < places then Binary64.pack negative 0 1024
  else
    let r := Decimal.Ratio.scaled digits 10 exponent
    Binary64.ofRatio negative r.num r.den

end Number

end Cosmac
