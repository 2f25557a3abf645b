import Cosmac.Text.Quoted
import Cosmac.Number.Basic

/-!
# Data values

The values of the data format: a tree of lists and records over texts, numbers, truth values and
nothing. A record keeps its members in the order in which their keys first came, each with the
value that came last.

`Value.literal` is the form in which messages show a value.
-/

namespace Cosmac.Json

/-- A value of the data format. -/
inductive Value where
  | null
  | bool (b : Bool)
  | number (n : Number)
  | string (t : Text)
  | array (items : List Value)
  | object (members : List (Text × Value))

/-- A list of keys with a value each. -/
abbrev Members := List (Text × Value)

namespace Members

/-- Gives a key a value: in the place that the key has, or else at the end. -/
def put (ms : Members) (key : Text) (value : Value) : Members :=
  match ms with
  | [] => [(key, value)]
  | (k, v) :: rest =>
    if k = key then (k, value) :: rest else (k, v) :: put rest key value

/-- The value of a key. -/
def get? (ms : Members) (key : Text) : Option Value :=
  (ms.find? fun m => m.1 == key).map (·.2)

/-- The keys in order. -/
def keys (ms : Members) : List Text :=
  ms.map (·.1)

/-- All members of `more` put into `ms`. -/
def putAll (ms more : Members) : Members :=
  more.foldl (fun ms m => put ms m.1 m.2) ms

/-- The members of a list in which a key may come more than once. -/
def ofList (ms : List (Text × Value)) : Members :=
  putAll [] ms

end Members

namespace Value

/-- The kind of a value, as messages name it. -/
def kind : Value → String
  | null => "NoneType"
  | bool _ => "bool"
  | number (.int _) => "int"
  | number (.float _) => "float"
  | string _ => "str"
  | array _ => "list"
  | object _ => "dict"

mutual

/-- The value as messages show it. -/
def literal : Value → Text
  | null => "None"
  | bool b => if b then "True" else "False"
  | number n => n.text
  | string t => t.quoted
  | array items => "[" ++ literalItems items ++ "]"
  | object members => "\x7b" ++ literalMembers members ++ "\x7d"

/-- Values separated by commas. -/
def literalItems : List Value → Text
  | [] => []
  | [v] => v.literal
  | v :: w :: rest => v.literal ++ ", " ++ literalItems (w :: rest)

/-- Keys with their values, separated by commas. -/
def literalMembers : List (Text × Value) → Text
  | [] => []
  | [(k, v)] => k.quoted ++ ": " ++ v.literal
  | (k, v) :: m :: rest => k.quoted ++ ": " ++ v.literal ++ ", " ++ literalMembers (m :: rest)

end

end Value

end Cosmac.Json
