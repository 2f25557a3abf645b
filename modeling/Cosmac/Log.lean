/-!
# Log entries

What the parts of the program report while they work: an entry has a level, the name of the part
that made it and a text. Which entries are kept is decided by the lowest level that is wanted.
-/

namespace Cosmac.Log

/-- How much an entry matters. -/
inductive Level where
  | debug
  | info
  | warning
  | error
  deriving DecidableEq, Repr

namespace Level

/-- The place of a level in the order from detail to failure. -/
def rank : Level → Nat
  | debug => 0
  | info => 1
  | warning => 2
  | error => 3

/-- The name that starts a line of the log. -/
def name : Level → String
  | debug => "DEBUG"
  | info => "INFO"
  | warning => "WARNING"
  | error => "ERROR"

end Level

/-- The parts of the program that keep a log. -/
inductive Source where
  | machine
  | frames
  | sound
  | window
  | commandLine
  deriving DecidableEq, Repr

/-- The name under which a part reports. -/
def Source.name : Source → String
  | machine => "chip8vm.chip8"
  | frames => "chip8vm.runner"
  | sound => "chip8vm.audio"
  | window => "chip8vm.frontend"
  | commandLine => "chip8vm.cli"

/-- What a part of the program has reported. -/
structure Entry where
  level : Level
  source : Source
  text : String
  deriving DecidableEq, Repr

namespace Entry

/-- The entry as a line of the log. -/
def line (e : Entry) : String :=
  e.level.name ++ " " ++ e.source.name ++ ": " ++ e.text

/-- The entry matters at least as much as `lowest`. -/
def reaches (e : Entry) (lowest : Level) : Bool :=
  lowest.rank ≤ e.level.rank

end Entry

end Cosmac.Log
