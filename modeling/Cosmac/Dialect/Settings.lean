import Cosmac.Dialect
import Cosmac.Json.Value
import Cosmac.Text.Lower

/-!
# Dialects from data

A dialect can be given as a record of switches, each true or false, where a switch that is left out
is off. It can also be given as the name of a profile together with a record of switches that differ
from it. Unknown names and values of another kind are refused.
-/

namespace Cosmac

namespace Dialect

open Json

/-- Why data gives no dialect. -/
inductive Error where
  /-- Names that no switch has, in ascending order. -/
  | unknownSwitches (names : List Text)
  | notBool (name : Text) (value : Value)
  | unknownProfile (name : Text)
  deriving Inhabited

/-- Texts separated by commas. -/
def commaList (ts : List Text) : Text :=
  Text.join ", " ts

namespace Error

/-- What the user is told. -/
def message : Error → Text
  | unknownSwitches names => "Unknown quirk(s): " ++ commaList names
  | notBool name value =>
    "Quirk '" ++ name ++ "' must be true or false, got " ++ value.literal
  | unknownProfile name =>
    "Unknown quirk profile '" ++ name ++ "' (available: " ++
      commaList (Profile.all.map fun p => Text.ofString p.name) ++ ")"

end Error

/-- The switch of a name. -/
def switch? (name : Text) : Option Switch :=
  Switch.all.find? fun s => Text.ofString s.name == name

/-- Texts in ascending order of their code points. -/
def sorted (ts : List Text) : List Text :=
  ts.mergeSort fun t u => !u.before t

/-- The position that a record gives to a switch, off if it gives none. -/
def position (ms : Members) (s : Switch) : Bool :=
  match ms.get? s.name with
  | some (.bool b) => b
  | _ => false

/-- The first member whose value is neither true nor false. -/
def misfit? (ms : Members) : Option (Text × Value) :=
  ms.find? fun m => match m.2 with
    | .bool _ => false
    | _ => true

/-- The dialect of a record of switches. -/
def ofMembers? (ms : Members) : Except Error Dialect :=
  let unknown := ms.keys.filter fun k => (switch? k).isNone
  if !unknown.isEmpty then .error (.unknownSwitches (sorted unknown))
  else
    match misfit? ms with
    | some (name, value) => .error (.notBool name value)
    | none => .ok (ofFn (position ms))

/-- A dialect as a record of all switches. -/
def toMembers (d : Dialect) : Members :=
  Switch.all.map fun s => (Text.ofString s.name, .bool (d.get s))

/-- The dialect with the switches of a record in their new positions. -/
def override? (d : Dialect) (ms : Members) : Except Error Dialect :=
  ofMembers? (d.toMembers.putAll ms)

end Dialect

/-- The profile of a name in letters of either case. -/
def Profile.ofText? (name : Text) : Except Dialect.Error Profile :=
  match ofName? name.toLower.toString with
  | some p => .ok p
  | none => .error (.unknownProfile name)

end Cosmac
