import Cosmac.Json.Token

/-!
# Reading data

`read` turns a text into a value. The tokens are taken one after another by a machine whose stack
holds the lists and records that are still open; what it may meet next is part of its state. A text
can be wrong in three ways: it is blank, it starts with a byte order mark or does not follow the
format, or it holds a whole number that is too long.
-/

namespace Cosmac.Json

/-- A place in a text: the line and the column, counted from one, and the number of code points
before it. -/
structure Position where
  line : Nat
  column : Nat
  offset : Nat
  deriving DecidableEq, Repr

namespace Position

/-- The place where a text starts. -/
def start : Position := ⟨1, 1, 0⟩

/-- The place behind one more code point. -/
def after (at_ : Position) (p : CodePoint) : Position :=
  if p.val = 0x0A then ⟨at_.line + 1, 1, at_.offset + 1⟩
  else ⟨at_.line, at_.column + 1, at_.offset + 1⟩

/-- The place where a text ends. -/
def ofEnd (t : Text) : Position :=
  t.foldl after start

/-- The place as messages name it. -/
def text (at_ : Position) : String :=
  "line " ++ toString at_.line ++ " column " ++ toString at_.column ++
    " (char " ++ toString at_.offset ++ ")"

end Position

/-- Why a text has no value. -/
inductive Error where
  /-- There is nothing in the text up to its end. -/
  | blank (ending : Position)
  | malformed
  | longInteger (digits : Nat)
  deriving DecidableEq, Repr

/-- What the user is told. There is no fixed text for the many ways in which a text can break the
rules of the format. -/
def Error.message? : Error → Option String
  | blank ending => some ("Expecting value: " ++ ending.text)
  | malformed => none
  | longInteger digits =>
    some ("Exceeds the limit (" ++ toString Numeral.maxDigits ++
      " digits) for integer string conversion: value has " ++ toString digits ++
      " digits; use sys.set_int_max_str_digits() to increase the limit")

namespace Reader

/-- A list or a record that is still open. -/
inductive Frame where
  /-- The items so far, the latest first. -/
  | array (items : List Value)
  /-- The members so far, the latest first, and the key that waits for its value. -/
  | object (members : List (Text × Value)) (key : Text)

/-- What may come next. -/
inductive Expected where
  | value
  /-- An item of a list that has just been opened, or its end. -/
  | itemOrEnd
  /-- A key of a record that has just been opened, or its end. -/
  | keyOrEnd
  /-- A key after a comma; the members so far. -/
  | key (members : List (Text × Value))
  /-- The colon after a key; the members so far. -/
  | colon (members : List (Text × Value)) (key : Text)
  /-- A comma or the end of the innermost list or record. -/
  | separator
  /-- Nothing: the value is complete. -/
  | nothing (v : Value)

/-- A reader between two tokens. -/
structure State where
  stack : List Frame
  expected : Expected

/-- A value is complete. -/
def accept (stack : List Frame) (v : Value) : State :=
  match stack with
  | [] => ⟨[], .nothing v⟩
  | .array items :: rest => ⟨.array (v :: items) :: rest, .separator⟩
  | .object members key :: rest => ⟨.object ((key, v) :: members) key :: rest, .separator⟩

/-- A token where a value may start. -/
def start (stack : List Frame) : Token → Except Error State
  | .openObject => .ok ⟨stack, .keyOrEnd⟩
  | .openArray => .ok ⟨.array [] :: stack, .itemOrEnd⟩
  | .string t => .ok (accept stack (.string t))
  | .plain v => .ok (accept stack v)
  | .longInteger digits => .error (.longInteger digits)
  | _ => .error .malformed

/-- Takes one token. -/
def step (s : State) (tok : Token) : Except Error State :=
  match s.expected, s.stack, tok with
  | .value, stack, tok => start stack tok
  | .itemOrEnd, .array [] :: rest, .closeArray => .ok (accept rest (.array []))
  | .itemOrEnd, stack, tok => start stack tok
  | .keyOrEnd, stack, .closeObject => .ok (accept stack (.object []))
  | .keyOrEnd, stack, .string key => .ok ⟨stack, .colon [] key⟩
  | .key members, stack, .string key => .ok ⟨stack, .colon members key⟩
  | .colon members key, stack, .colon => .ok ⟨.object members key :: stack, .value⟩
  | .separator, .array items :: rest, .comma => .ok ⟨.array items :: rest, .value⟩
  | .separator, .array items :: rest, .closeArray => .ok (accept rest (.array items.reverse))
  | .separator, .object members _ :: rest, .comma => .ok ⟨rest, .key members⟩
  | .separator, .object members _ :: rest, .closeObject =>
    .ok (accept rest (.object (Members.ofList members.reverse)))
  | _, _, _ => .error .malformed

end Reader

/-- The byte order mark. -/
def byteOrderMark : CodePoint := .ofNat 0xFEFF

/-- The value that a text stands for. -/
def read (t : Text) : Except Error Value := do
  if t.head? = some byteOrderMark then .error .malformed
  let tokens := Token.scan [] t
  if tokens.isEmpty then .error (.blank (.ofEnd t))
  let s ← tokens.foldlM Reader.step ⟨[], .value⟩
  match s.expected with
  | .nothing v => .ok v
  | _ => .error .malformed

end Cosmac.Json
