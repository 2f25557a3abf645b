import Cosmac.Text.Digit

/-!
# Whole numbers as they are typed

A numeral is a sign, if there is one, and digits of any script; single underscores may stand between
digits, and blanks around the whole. There is a limit to the number of digits.
-/

namespace Cosmac.Numeral

/-- How many digits a numeral may have. -/
def maxDigits : Nat := 4300

/-- The blanks beyond the first 128 code points. -/
def wideBlanks : List Nat :=
  [0x85, 0xA0, 0x1680, 0x2000, 0x2001, 0x2002, 0x2003, 0x2004, 0x2005, 0x2006, 0x2007, 0x2008,
   0x2009, 0x200A, 0x2028, 0x2029, 0x202F, 0x205F, 0x3000]

/-- Space that may stand around a numeral. -/
def isBlank (p : CodePoint) : Bool :=
  p.val = 0x20 || (0x09 ≤ p.val && p.val ≤ 0x0D) || wideBlanks.contains p.val

/-- The text without the blanks around it. -/
def trim (t : Text) : Text :=
  ((t.dropWhile isBlank).reverse.dropWhile isBlank).reverse

/-- The digits of a text after a digit: more digits, or an underscore and a digit. -/
def moreDigits? : Text → Option (List Nat)
  | [] => some []
  | [p] => p.digit?.map ([·])
  | p :: q :: rest =>
    match p.digit? with
    | some d => (moreDigits? (q :: rest)).map (d :: ·)
    | none =>
      if p.val = 0x5F then
        match q.digit? with
        | some d => (moreDigits? rest).map (d :: ·)
        | none => none
      else none

/-- The digits of a text that starts with one. -/
def digits? : Text → Option (List Nat)
  | [] => none
  | p :: rest =>
    match p.digit? with
    | some d => (moreDigits? rest).map (d :: ·)
    | none => none

/-- The number that a list of digits stands for. -/
def value (ds : List Nat) : Nat :=
  ds.foldl (fun n d => 10 * n + d) 0

/-- The number of a text without a sign. -/
def natural? (t : Text) : Option Nat :=
  match digits? t with
  | some ds => if maxDigits < ds.length then none else some (value ds)
  | none => none

/-- The number that a text stands for. -/
def integer? (t : Text) : Option Int :=
  match trim t with
  | [] => none
  | p :: rest =>
    if p.val = 0x2D then (natural? rest).map fun n => -(n : Int)
    else if p.val = 0x2B then (natural? rest).map fun n => (n : Int)
    else (natural? (p :: rest)).map fun n => (n : Int)

/-- The text is a minus sign and digits with at most one point among them, which a digit has to
follow. A line feed at the end does not count. -/
def looksNegative : Text → Bool
  | [] => false
  | p :: rest =>
    let body := if rest.getLast?.map (·.val) = some 0x0A then rest.dropLast else rest
    let isDigit (p : CodePoint) : Bool := p.digit?.isSome
    let whole := body.takeWhile isDigit
    p.val = 0x2D &&
      match body.dropWhile isDigit with
      | [] => !whole.isEmpty
      | point :: fraction => point.val = 0x2E && !fraction.isEmpty && fraction.all isDigit

end Cosmac.Numeral
