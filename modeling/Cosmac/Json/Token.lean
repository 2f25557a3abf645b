import Cosmac.Json.Value
import Cosmac.Number.Numeral

/-!
# Tokens of the data format

Cuts a text into brackets, separators, texts and plain values. What cannot be cut becomes a last
token `bad`, so that an error earlier in the text is found first.

Every token takes at least one code point; the lemmas on the length of the rest say so and make the
scan end.
-/

namespace Cosmac.Json

/-- A piece of a text that has a meaning of its own. -/
inductive Token where
  | openObject
  | closeObject
  | openArray
  | closeArray
  | colon
  | comma
  | string (t : Text)
  | plain (v : Value)
  /-- A whole number with more digits than are accepted. -/
  | longInteger (digits : Nat)
  /-- The rest of the text is no token. -/
  | bad

namespace Token

/-- The code point of a character, for comparison. -/
abbrev point (c : Char) : CodePoint := CodePoint.ofChar c

/-- Space between tokens. -/
def isBlank (p : CodePoint) : Bool :=
  p.val = 0x20 || p.val = 0x09 || p.val = 0x0A || p.val = 0x0D

/-- A decimal digit of the format; those of other scripts are none. -/
def isDigit (p : CodePoint) : Bool :=
  48 ≤ p.val && p.val ≤ 57

/-- The number that a list of digits stands for. -/
def digitsValue (ds : Text) : Nat :=
  ds.foldl (fun n d => 10 * n + (d.val - 48)) 0

/-! ## Texts -/

/-- The value of a hexadecimal digit. -/
def hexValue? (p : CodePoint) : Option Nat :=
  Hex.value? p.toChar

/-- The value of four hexadecimal digits. -/
def hexQuad? (a b c d : CodePoint) : Option CodePoint := do
  let a ← hexValue? a
  let b ← hexValue? b
  let c ← hexValue? c
  let d ← hexValue? d
  return .ofNat (((a * 16 + b) * 16 + c) * 16 + d)

/-- What an escape of one letter stands for. -/
def shortEscape? (p : CodePoint) : Option CodePoint :=
  if p = point '"' ∨ p = point '\\' ∨ p = point '/' then some p
  else if p = point 'b' then some (.ofNat 8)
  else if p = point 'f' then some (.ofNat 12)
  else if p = point 'n' then some (.ofNat 10)
  else if p = point 'r' then some (.ofNat 13)
  else if p = point 't' then some (.ofNat 9)
  else none

/-- A text up to its closing quote and what follows, the part before in reverse order. -/
def textBody (before : Text) : Text → Option (Text × Text)
  | [] => none
  | p :: rest =>
    if p = point '"' then some (before.reverse, rest)
    else if p.val < 0x20 then none
    else if p = point '\\' then
      match rest with
      | [] => none
      | e :: rest =>
        if e = point 'u' then
          match rest with
          | a :: b :: c :: d :: rest =>
            match hexQuad? a b c d with
            | some q => textBody (q :: before) rest
            | none => none
          | _ => none
        else
          match shortEscape? e with
          | some q => textBody (q :: before) rest
          | none => none
    else textBody (p :: before) rest

/-- A text takes at least its closing quote. -/
theorem length_of_textBody {before t s rest : Text} (h : textBody before t = some (s, rest)) :
    rest.length < t.length := by
  fun_induction textBody before t <;> simp_all <;> omega

/-- Puts the halves of surrogate pairs together. -/
def joinSurrogates : Text → Text
  | h :: l :: rest =>
    if 0xD800 ≤ h.val ∧ h.val < 0xDC00 ∧ 0xDC00 ≤ l.val ∧ l.val < 0xE000 then
      CodePoint.ofNat (0x10000 + (h.val - 0xD800) * 0x400 + (l.val - 0xDC00)) ::
        joinSurrogates rest
    else h :: joinSurrogates (l :: rest)
  | t => t

/-! ## Numbers -/

/-- The digits at the start of a text and what follows. -/
def spanDigits (t : Text) : Text × Text :=
  (t.takeWhile isDigit, t.dropWhile isDigit)

/-- Digits leave no more than was there. -/
theorem length_spanDigits (t : Text) : (spanDigits t).2.length ≤ t.length := by
  simp only [spanDigits]
  exact (List.dropWhile_sublist isDigit).length_le

/-- The digits before the point: a zero alone or digits that start with another one. -/
def wholePart? (t : Text) : Option (Text × Text) :=
  match t with
  | [] => none
  | p :: rest =>
    if p = point '0' then some ([p], rest)
    else if isDigit p then
      let (ds, rest) := spanDigits rest
      some (p :: ds, rest)
    else none

/-- The digits after the point, none if no digit follows it. -/
def fractionPart (t : Text) : Text × Text :=
  match t with
  | [] => ([], [])
  | p :: rest =>
    if p = point '.' then
      let (ds, rest) := spanDigits rest
      if ds.isEmpty then ([], t) else (ds, rest)
    else ([], t)

/-- The sign of an exponent. -/
def signPart (t : Text) : Bool × Text :=
  match t with
  | [] => (false, [])
  | p :: rest =>
    if p = point '-' then (true, rest)
    else if p = point '+' then (false, rest)
    else (false, t)

/-- The exponent, if one is written. -/
def exponentPart (t : Text) : Option Int × Text :=
  match t with
  | [] => (none, [])
  | p :: rest =>
    if p = point 'e' ∨ p = point 'E' then
      let (negative, rest) := signPart rest
      let (ds, rest) := spanDigits rest
      if ds.isEmpty then (none, t) else (some (Binary64.signed negative (digitsValue ds)), rest)
    else (none, t)

/-- The token of a number written with these parts. -/
def ofNumeral (negative : Bool) (whole fraction : Text) (exponent : Option Int) : Token :=
  if fraction.isEmpty ∧ exponent.isNone then
    if Numeral.maxDigits < whole.length then longInteger whole.length
    else plain (.number (.int (Binary64.signed negative (digitsValue whole))))
  else
    let ds := whole ++ fraction
    plain (.number (.float
      (Number.ofDecimal negative (digitsValue ds) ds.length
        (exponent.getD 0 - fraction.length))))

/-- The number at the start of a text and what follows; a sign has been read. -/
def numeral? (negative : Bool) (t : Text) : Option (Token × Text) := do
  let (whole, rest) ← wholePart? t
  let (fraction, rest) := fractionPart rest
  let (exponent, rest) := exponentPart rest
  return (ofNumeral negative whole fraction exponent, rest)

/-- A whole part takes at least one digit. -/
theorem length_of_wholePart? {t whole rest : Text} (h : wholePart? t = some (whole, rest)) :
    rest.length < t.length := by
  unfold wholePart? at h
  split at h
  · simp at h
  next p tail =>
    split at h
    · simp at h; simp [h.2]
    · split at h
      · simp at h
        have := length_spanDigits tail
        simp [← h.2]; omega
      · simp at h

theorem length_fractionPart (t : Text) : (fractionPart t).2.length ≤ t.length := by
  unfold fractionPart
  split
  · simp
  next p tail =>
    split
    · have := length_spanDigits tail
      simp only
      split
      · simp
      · simp; omega
    · simp

theorem length_signPart (t : Text) : (signPart t).2.length ≤ t.length := by
  unfold signPart
  split
  · simp
  · split
    · simp
    · split <;> simp

theorem length_exponentPart (t : Text) : (exponentPart t).2.length ≤ t.length := by
  unfold exponentPart
  split
  · simp
  next p tail =>
    split
    · have h1 := length_signPart tail
      have h2 := length_spanDigits (signPart tail).2
      simp only
      split
      · simp
      · simp; omega
    · simp

/-- A numeral takes at least one digit. -/
theorem length_of_numeral? {negative : Bool} {t rest : Text} {tok : Token}
    (h : numeral? negative t = some (tok, rest)) : rest.length < t.length := by
  simp only [numeral?, Option.bind_eq_bind, Option.bind_eq_some_iff, Option.pure_def,
    Option.some.injEq] at h
  obtain ⟨⟨whole, tail⟩, hw, h⟩ := h
  have h1 := length_of_wholePart? hw
  have h2 := length_fractionPart tail
  have h3 := length_exponentPart (fractionPart tail).2
  simp only [Prod.mk.injEq] at h
  rw [← h.2]
  omega

/-! ## Cutting a text -/

/-- What follows a word at the start of a text. -/
def afterWord? (word : String) (t : Text) : Option Text :=
  let w := Text.ofString word
  if w.isPrefixOf t then some (t.drop w.length) else none

theorem length_of_afterWord? {word : String} {t rest : Text} (h : afterWord? word t = some rest) :
    rest.length ≤ t.length := by
  simp only [afterWord?] at h
  split at h
  · simp at h; simp [← h]
  · simp at h

/-- The words of the format: their first letter, the other letters and the value. -/
def words : List (Char × String × Value) :=
  [('n', "ull", .null),
   ('t', "rue", .bool true),
   ('f', "alse", .bool false),
   ('N', "aN", .number (.float (0.0 / 0.0))),
   ('I', "nfinity", .number (.float (Binary64.pack false 0 1024)))]

/-- The token of a word whose first letter has been read. -/
def word? (p : CodePoint) (rest : Text) : Option (Token × Text) := do
  let (_, letters, v) ← words.find? fun w => point w.1 == p
  let rest ← afterWord? letters rest
  return (plain v, rest)

/-- The number that a negative sign starts: infinity by its name, or a numeral. -/
def negative? (rest : Text) : Option (Token × Text) :=
  match afterWord? "Infinity" rest with
  | some rest => some (plain (.number (.float (Binary64.pack true 0 1024))), rest)
  | none => numeral? true rest

/-- The tokens of a single character. -/
def single? (p : CodePoint) : Option Token :=
  if p = point '\x7b' then some openObject
  else if p = point '\x7d' then some closeObject
  else if p = point '[' then some openArray
  else if p = point ']' then some closeArray
  else if p = point ':' then some colon
  else if p = point ',' then some comma
  else none

/-- The token that starts with `p`, which is no blank, and what follows it. -/
def ofStart? (p : CodePoint) (rest : Text) : Option (Token × Text) :=
  match single? p with
  | some tok => some (tok, rest)
  | none =>
    if p = point '"' then
      (textBody [] rest).map fun (t, rest) => (string (joinSurrogates t), rest)
    else if p = point '-' then negative? rest
    else if isDigit p then numeral? false (p :: rest)
    else word? p rest

theorem length_of_word? {p : CodePoint} {rest tail : Text} {tok : Token}
    (h : word? p rest = some (tok, tail)) : tail.length ≤ rest.length := by
  simp only [word?, Option.bind_eq_bind, Option.bind_eq_some_iff, Option.pure_def,
    Option.some.injEq, Prod.mk.injEq] at h
  obtain ⟨_, _, r, hr, _, rfl⟩ := h
  exact length_of_afterWord? hr

theorem length_of_negative? {rest tail : Text} {tok : Token}
    (h : negative? rest = some (tok, tail)) : tail.length ≤ rest.length := by
  unfold negative? at h
  split at h
  next r hr =>
    simp only [Option.some.injEq, Prod.mk.injEq] at h
    exact h.2 ▸ length_of_afterWord? hr
  next => exact Nat.le_of_lt (length_of_numeral? h)

/-- Whatever starts with a code point leaves no more than stands behind it. -/
theorem length_of_ofStart? {p : CodePoint} {rest tail : Text} {tok : Token}
    (h : ofStart? p rest = some (tok, tail)) : tail.length ≤ rest.length := by
  unfold ofStart? at h
  split at h
  · simp only [Option.some.injEq, Prod.mk.injEq] at h
    exact Nat.le_of_eq (by rw [h.2])
  split at h
  · simp only [Option.map_eq_some_iff, Prod.mk.injEq] at h
    obtain ⟨⟨t, r⟩, hr, _, rfl⟩ := h
    exact Nat.le_of_lt (length_of_textBody hr)
  split at h
  · exact length_of_negative? h
  split at h
  · have := length_of_numeral? h
    simp at this
    omega
  · exact length_of_word? h

/-- The tokens of a text after some others, which are in reverse order. -/
def scan (before : List Token) (t : Text) : List Token :=
  match t with
  | [] => before.reverse
  | p :: rest =>
    if isBlank p then scan before rest
    else
      match _cut : ofStart? p rest with
      | none => (bad :: before).reverse
      | some (tok, tail) => scan (tok :: before) tail
termination_by t.length
decreasing_by
  · simp
  · have := length_of_ofStart? _cut
    simp
    omega

end Token

end Cosmac.Json
