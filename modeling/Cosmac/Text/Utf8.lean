import Cosmac.Text.Basic
import Cosmac.Word

/-!
# Text as bytes

A text is stored as one to four bytes for each code point. Reading goes byte by byte: the reader
knows how many bytes the current code point still owes and in which range the next of them has to
lie, which rules out forms that are longer than they need be, surrogates and numbers out of range.
-/

namespace Cosmac.Text

namespace Utf8

/-- A reader between two bytes. -/
structure Reader where
  /-- The code points so far, the latest first. -/
  done : Text := []
  /-- How many bytes of the current code point are to come. -/
  owed : Nat := 0
  /-- The least value of the next of them. -/
  least : Nat := 0x80
  /-- The greatest value of the next of them. -/
  greatest : Nat := 0xBF
  /-- The bits of the current code point so far. -/
  value : Nat := 0

namespace Reader

/-- The first byte of a code point. -/
def first (r : Reader) (b : Nat) : Option Reader :=
  if b < 0x80 then some { done := CodePoint.ofNat b :: r.done }
  else if b < 0xC2 then none
  else if b < 0xE0 then some { done := r.done, owed := 1, value := b - 0xC0 }
  else if b = 0xE0 then some { done := r.done, owed := 2, least := 0xA0 }
  else if b = 0xED then some { done := r.done, owed := 2, greatest := 0x9F, value := 0xD }
  else if b < 0xF0 then some { done := r.done, owed := 2, value := b - 0xE0 }
  else if b = 0xF0 then some { done := r.done, owed := 3, least := 0x90 }
  else if b < 0xF4 then some { done := r.done, owed := 3, value := b - 0xF0 }
  else if b = 0xF4 then some { done := r.done, owed := 3, greatest := 0x8F, value := 4 }
  else none

/-- One more byte. -/
def step (r : Reader) (b : Nat) : Option Reader :=
  if r.owed = 0 then r.first b
  else if b < r.least ∨ r.greatest < b then none
  else
    let value := r.value * 64 + (b - 0x80)
    if r.owed = 1 then some { done := CodePoint.ofNat value :: r.done }
    else some { done := r.done, owed := r.owed - 1, value }

end Reader

end Utf8

/-- The text that is stored as the given bytes. -/
def ofUtf8? (bytes : List Byte) : Option Text := do
  let r ← bytes.foldlM (fun (r : Utf8.Reader) b => r.step b.toNat) {}
  if r.owed = 0 then some r.done.reverse else none

/-- The bytes of a code point. -/
def codePointToUtf8 (p : CodePoint) : List Byte :=
  let n := p.val
  let tail (shift : Nat) : Nat := 0x80 + (n >>> shift) % 64
  (if n < 0x80 then [n]
    else if n < 0x800 then [0xC0 + n / 64, tail 0]
    else if n < 0x10000 then [0xE0 + n / 4096, tail 6, tail 0]
    else [0xF0 + n / 262144, tail 12, tail 6, tail 0]).map (BitVec.ofNat 8)

/-- The bytes in which a text is stored. -/
def toUtf8 (t : Text) : List Byte :=
  t.flatMap codePointToUtf8

end Cosmac.Text
