import Cosmac.Dialect.Settings
import Cosmac.Files.Basic
import Cosmac.Json.Reader

/-!
# Dialects from files

A file with a dialect holds a record. Without a member `profile` the record gives the switches
themselves. With one it names a profile, and the switches that differ from it stand in a record
`overrides`; nothing else is allowed beside these two.

Everything that can be wrong with a file is an error that the user is told about, with one exception:
a profile whose name is no text at all is a failure of another kind, see `Error.isExpected`.
-/

namespace Cosmac.Dialect.File

open Json

/-- Why a file gives no dialect. -/
inductive Error where
  | file (e : Files.Error)
  /-- The bytes are no text. -/
  | notText
  /-- The text is no data. -/
  | notData (e : Json.Error)
  | notRecord (path : String)
  /-- Members beside the profile and the overrides, in ascending order of their keys. -/
  | unexpectedKeys (path : String) (keys : List Text)
  /-- The profile is a value of the given kind instead of a name. -/
  | profileKind (kind : String)
  | overridesNotRecord (path : String)
  | settings (e : Dialect.Error)

/-- The words for bytes that are no text and for text that breaks the rules of the format. Those who
decode the bytes and parse the text choose them; nothing else depends on them. -/
structure Wording where
  notText : Text := "The file is not text"
  malformed : Text := "The text does not follow the format"

namespace Error

/-- What the user is told, in the given words where there is no fixed text. -/
def messageIn (words : Wording) : Error → Text
  | file e => e.message
  | notText => words.notText
  | notData e => (e.message?.map Text.ofString).getD words.malformed
  | notRecord path => "Quirk file " ++ path ++ " must contain a JSON object"
  | unexpectedKeys path keys =>
    "Unexpected key(s) in quirk file " ++ path ++ ": " ++ commaList keys
  | profileKind kind => "'" ++ kind ++ "' object has no attribute 'lower'"
  | overridesNotRecord path => "'overrides' in quirk file " ++ path ++ " must be a JSON object"
  | settings e => e.message

/-- What the user is told, in plain words where there is no fixed text. -/
def message (e : Error) : Text :=
  e.messageIn {}

/-- The error is one that a file is expected to have. -/
def isExpected : Error → Bool
  | profileKind _ => false
  | _ => true

end Error

/-- A text with every line end as a line feed. -/
def unifyLineEnds : Text → Text
  | [] => []
  | [p] => if p.val = 0x0D then [.ofNat 0x0A] else [p]
  | p :: q :: rest =>
    if p.val = 0x0D then
      if q.val = 0x0A then .ofNat 0x0A :: unifyLineEnds rest
      else .ofNat 0x0A :: unifyLineEnds (q :: rest)
    else p :: unifyLineEnds (q :: rest)

/-- The key of the profile. -/
def profileKey : Text := "profile"

/-- The key of the switches that differ from the profile. -/
def overridesKey : Text := "overrides"

/-- The keys of a record that may not stand beside a profile. -/
def unexpectedKeys (ms : Members) : List Text :=
  sorted (ms.keys.filter fun k => k != profileKey && k != overridesKey)

/-- The profile that a value names. -/
def profileOf : Value → Except Error Profile
  | .string name => (Profile.ofText? name).mapError .settings
  | v => .error (.profileKind v.kind)

/-- The dialect of a record in which a profile is given. -/
def ofProfile (path : String) (ms : Members) (profile : Value) : Except Error Dialect := do
  let unexpected := unexpectedKeys ms
  if !unexpected.isEmpty then .error (.unexpectedKeys path unexpected)
  let base ← profileOf profile
  match Members.get? ms overridesKey with
  | none => .ok base.dialect
  | some (.object overrides) => (base.dialect.override? overrides).mapError .settings
  | some _ => .error (.overridesNotRecord path)

/-- The dialect of the data in a file. -/
def ofValue (path : String) : Value → Except Error Dialect
  | .object ms =>
    match Members.get? ms profileKey with
    | some profile => ofProfile path ms profile
    | none => (ofMembers? ms).mapError .settings
  | _ => .error (.notRecord path)

/-- The dialect of the content of a file. -/
def ofBytes (path : String) (content : List Byte) : Except Error Dialect :=
  match Text.ofUtf8? content with
  | none => .error .notText
  | some t =>
    match Json.read (unifyLineEnds t) with
    | .error e => .error (.notData e)
    | .ok v => ofValue path v

/-- The dialect of a file. -/
def read (fs : Files) (path : String) : Except Error Dialect :=
  match fs.read path with
  | .error e => .error (.file e)
  | .ok content => ofBytes path content.toBytes

end Cosmac.Dialect.File
