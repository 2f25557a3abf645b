import Cosmac.Command.Flag
import Cosmac.Dialect
import Cosmac.Files.Path
import Cosmac.Frame

/-!
# Options

What the words of a command line ask for. Words are taken from left to right; the first value that
belongs to no flag is the program, and a mistake is reported when it is met. Words that are left over,
a missing program and numbers out of range are reported at the end.
-/

namespace Cosmac.Command

/-- Where the dialect comes from. -/
inductive Source where
  | profile (p : Profile)
  | file (path : Path)
  deriving DecidableEq, Repr

/-- What the command is to do. -/
structure Options where
  program : Path
  dialect : Source
  pace : Pace
  scale : Int
  seed : Option Int
  headless : Bool
  frames : Int
  ascii : Bool
  screenshot : Option Path
  debugLog : Option Path
  verbose : Bool

/-- Why there are no options. -/
inductive Stop where
  /-- The user asked for help. -/
  | help
  | mistake (e : UsageError)
  deriving DecidableEq, Repr

namespace Options

/-- The options as far as the words have been read. -/
structure Draft where
  program : Option Path := none
  dialect : Option Source := none
  pace : Int := 20
  scale : Int := 10
  seed : Option Int := none
  headless : Bool := false
  frames : Int := 600
  ascii : Bool := false
  screenshot : Option Path := none
  debugLog : Option Path := none
  verbose : Bool := false
  /-- The words that belong nowhere. -/
  left : List String := []

namespace Draft

/-- The number that goes with a flag. -/
def integer (f : Flag) (value : String) : Except Stop Int :=
  match Numeral.integer? (Text.ofString value) with
  | some n => .ok n
  | none => .error (.mistake (.notInteger f value))

/-- The names of the profiles. -/
def choices : List String :=
  Profile.all.map Profile.name

/-- A flag that takes no value. -/
def mark (d : Draft) : Flag → Except Stop Draft
  | .help => .error .help
  | .headless => .ok { d with headless := true }
  | .ascii => .ok { d with ascii := true }
  | .verbose => .ok { d with verbose := true }
  | f => .error (.mistake (.missingValue f))

/-- A flag with its value. -/
def set (d : Draft) (f : Flag) (value : String) : Except Stop Draft :=
  match f with
  | .profile =>
    match Profile.ofName? value with
    | none => .error (.mistake (.unknownChoice f value choices))
    | some p =>
      match d.dialect with
      | some (.file _) => .error (.mistake (.conflict f .dialectFile))
      | _ => .ok { d with dialect := some (.profile p) }
  | .dialectFile =>
    match d.dialect with
    | some (.profile _) => .error (.mistake (.conflict f .profile))
    | _ => .ok { d with dialect := some (.file (.ofString value)) }
  | .pace => do return { d with pace := ← integer f value }
  | .scale => do return { d with scale := ← integer f value }
  | .seed => do return { d with seed := some (← integer f value) }
  | .frames => do return { d with frames := ← integer f value }
  | .screenshot => .ok { d with screenshot := some (.ofString value) }
  | .debugLog => .ok { d with debugLog := some (.ofString value) }
  | f => .error (.mistake (.ignoredValue f value))

/-- A word that belongs nowhere. -/
def leave (d : Draft) (word : String) : Draft :=
  { d with left := d.left ++ [word] }

/-- Takes all words. A separator beside the program belongs to it. -/
def take (d : Draft) : List Word → Except Stop Draft
  | [] => .ok d
  | .value v :: rest =>
    match d.program, rest with
    | none, .separator :: rest => take { d with program := some (.ofString v) } rest
    | none, rest => take { d with program := some (.ofString v) } rest
    | some _, rest => take (d.leave v) rest
  | .separator :: rest =>
    match d.program, rest with
    | none, .value v :: rest => take { d with program := some (.ofString v) } rest
    | _, rest => take (d.leave "--") rest
  | .unknown w :: rest => take (d.leave w) rest
  | .misused e :: _ => .error (.mistake e)
  | .marks flags left :: rest => do
    let d ← flags.foldlM mark d
    take (match left with
      | none => d
      | some word => d.leave word) rest
  | .setting f (some v) :: rest => do take (← d.set f v) rest
  | .setting f none :: rest =>
    match rest with
    | .value v :: rest => do take (← d.set f v) rest
    | _ => .error (.mistake (.missingValue f))

/-- The options, once all words have been taken. -/
def finish (d : Draft) : Except Stop Options :=
  match d.program with
  | none => .error (.mistake .missingProgram)
  | some program =>
    if !d.left.isEmpty then .error (.mistake (.unrecognized d.left))
    else
      match Pace.ofInt? d.pace with
      | .error _ => .error (.mistake (.notPositive .pace))
      | .ok pace =>
        if d.scale < 1 then .error (.mistake (.notPositive .scale))
        else
          .ok { d with program, pace, dialect := d.dialect.getD (.profile .standard) }

end Draft

/-- The options that the words of a command line ask for. -/
def read (words : List String) : Except Stop Options := do
  let words ← (Word.readAll words).mapError .mistake
  (← ({} : Draft).take words).finish

end Options

end Cosmac.Command
