import Cosmac.Number.Numeral
import Cosmac.Text.Quoted

/-!
# Flags

A word of the command line is a flag or a value. Flags have one or two spellings, and a long one may
be cut short as long as it stays clear which flag is meant. A value can be attached to a flag by an
equals sign, and short flags, which take no values, can be run together behind one dash. Behind two
dashes alone every word is a value.
-/

namespace Cosmac.Command

/-- What a flag is about. -/
inductive Flag where
  | help
  | profile
  | dialectFile
  | pace
  | scale
  | seed
  | headless
  | frames
  | ascii
  | screenshot
  | debugLog
  | verbose
  deriving DecidableEq, Repr

namespace Flag

/-- The spellings of all flags, in the order in which messages list them. -/
def spellings : List (String × Flag) :=
  [("-h", help), ("--help", help), ("--profile", profile), ("--quirks-file", dialectFile),
   ("--ipf", pace), ("--scale", scale), ("--seed", seed), ("--headless", headless),
   ("--frames", frames), ("--ascii", ascii), ("--screenshot", screenshot),
   ("--debug-log", debugLog), ("-v", verbose), ("--verbose", verbose)]

/-- The flag is followed by a value. -/
def takesValue : Flag → Bool
  | help | headless | ascii | verbose => false
  | _ => true

/-- The flag as messages name it, by all its spellings. -/
def name (f : Flag) : String :=
  "/".intercalate ((spellings.filter fun s => s.2 == f).map (·.1))

/-- The flag of a spelling. -/
def ofSpelling? (s : String) : Option Flag :=
  (spellings.find? fun entry => entry.1 == s).map (·.2)

/-- The flag of a letter behind a single dash; none of these takes a value. -/
def ofLetter? (c : Char) : Option Flag :=
  ofSpelling? (String.ofList ['-', c])

end Flag

/-- Why the words of a command line make no sense. -/
inductive UsageError where
  /-- A flag cut too short; the spellings that it could stand for. -/
  | ambiguous (word : String) (candidates : List String)
  /-- A value is attached to a flag that takes none. -/
  | ignoredValue (f : Flag) (value : String)
  | missingValue (f : Flag)
  | notInteger (f : Flag) (value : String)
  /-- There is no such profile; the names that there are. -/
  | unknownChoice (f : Flag) (value : String) (choices : List String)
  /-- Two flags that exclude each other. -/
  | conflict (f other : Flag)
  /-- There is no program to run. -/
  | missingProgram
  | unrecognized (words : List String)
  /-- The number that goes with a flag has to be at least one. -/
  | notPositive (f : Flag)
  deriving DecidableEq, Repr

namespace UsageError

/-- A value as messages show it. -/
def shown (value : String) : Text :=
  (Text.ofString value).quoted

/-- What the user is told. -/
def message : UsageError → Text
  | ambiguous word candidates =>
    "ambiguous option: " ++ word ++ " could match " ++ ", ".intercalate candidates
  | ignoredValue f value =>
    "argument " ++ f.name ++ ": ignored explicit argument " ++ shown value
  | missingValue f => "argument " ++ f.name ++ ": expected one argument"
  | notInteger f value => "argument " ++ f.name ++ ": invalid int value: " ++ shown value
  | unknownChoice f value choices =>
    "argument " ++ f.name ++ ": invalid choice: " ++ shown value ++ " (choose from " ++
      Text.join ", " (choices.map shown) ++ ")"
  | conflict f other => "argument " ++ f.name ++ ": not allowed with argument " ++ other.name
  | missingProgram => "the following arguments are required: rom"
  | unrecognized words => "unrecognized arguments: " ++ " ".intercalate words
  | notPositive f => f.name ++ " must be at least 1"

end UsageError

/-- A word of the command line. -/
inductive Word where
  | value (text : String)
  /-- Two dashes alone. -/
  | separator
  /-- Flags that take no value, and what is left of the word behind them. -/
  | marks (flags : List Flag) (left : Option String)
  /-- A flag that takes a value, which may be attached to it. -/
  | setting (f : Flag) (attached : Option String)
  /-- It looks like a flag and is none. -/
  | unknown (text : String)
  /-- A flag with something attached to it that it does not take. -/
  | misused (e : UsageError)
  deriving DecidableEq, Repr

namespace Word

/-- A word in two parts at its first equals sign. -/
def cut (w : List Char) : List Char × Option (List Char) :=
  if w.contains '=' then
    (w.takeWhile (· != '='), some ((w.dropWhile (· != '=')).drop 1))
  else (w, none)

/-- The word of a long flag. -/
def ofLong (f : Flag) (attached : Option (List Char)) : Word :=
  if f.takesValue then .setting f (attached.map String.ofList)
  else
    match attached with
    | none => .marks [f] none
    | some text => .misused (.ignoredValue f (String.ofList text))

/-- The word of short flags that are run together: the flags before, the latest one and the letters
behind it. -/
def ofShort (before : List Flag) (f : Flag) : List Char → Word
  | [] => .marks (before ++ [f]) none
  | c :: rest =>
    if c = '=' then .misused (.ignoredValue f (String.ofList rest))
    else if c = '-' then .misused (.ignoredValue f (String.ofList (c :: rest)))
    else
      match Flag.ofLetter? c with
      | some g => ofShort (before ++ [f]) g rest
      | none => .marks (before ++ [f]) (some (String.ofList ('-' :: c :: rest)))

/-- A word that starts like a flag and names none. -/
def nameless (s : String) : Word :=
  if Numeral.looksNegative (Text.ofString s) || s.toList.contains ' ' then .value s
  else .unknown s

/-- Reads a word behind two dashes: a spelling in full comes first, then one that is cut short. -/
def readLong (s : String) : Except UsageError Word :=
  let (stem, attached) := cut s.toList
  match Flag.ofSpelling? (String.ofList stem) with
  | some f => .ok (ofLong f attached)
  | none =>
    match Flag.spellings.filter fun entry => stem.isPrefixOf entry.1.toList with
    | [] => .ok (nameless s)
    | [(_, f)] => .ok (ofLong f attached)
    | several => .error (.ambiguous s (several.map (·.1)))

/-- Reads a word in front of the separator. -/
def ofString (s : String) : Except UsageError Word :=
  match s.toList with
  | '-' :: '-' :: _ => readLong s
  | '-' :: c :: rest =>
    match Flag.ofLetter? c with
    | some f => .ok (ofShort [] f rest)
    | none => .ok (nameless s)
  | _ => .ok (.value s)

/-- Reads all words. -/
def readAll : List String → Except UsageError (List Word)
  | [] => .ok []
  | s :: rest =>
    if s = "--" then .ok (.separator :: rest.map .value)
    else do
      let w ← ofString s
      return w :: (← readAll rest)

end Word

end Cosmac.Command
