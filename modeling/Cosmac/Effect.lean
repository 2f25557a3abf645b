import Cosmac.Notice
import Cosmac.Text.Basic
import Cosmac.Window.Request

/-!
# Effects

What the program does to the world around it, in one list and in order: entries in the log, requests
to the mixer and to the window system, and text that it prints. The views pick out one kind and keep
the order.
-/

namespace Cosmac

/-- One thing that the program does to the world around it. -/
inductive Effect where
  | notice (n : Notice)
  | mixer (r : Mixer.Request)
  | window (r : Window.Request)
  /-- A line for the user. -/
  | print (line : Text)

namespace Effect

/-- The effects of what a speaker does. -/
def ofAction : Speaker.Action → Effect
  | .request r => .mixer r
  | .toneOn pitch => .notice (.toneOn pitch)
  | .toneOff => .notice .toneOff

/-- The effect of what a machine reports. -/
def ofMachine (n : Machine.Notice) : Effect :=
  .notice (.machine n)

/-- The entries in the log. -/
def entry? : Effect → Option Log.Entry
  | notice n => some n.entry
  | _ => none

/-- The requests to the mixer. -/
def mixer? : Effect → Option Mixer.Request
  | mixer r => some r
  | _ => none

/-- The requests to the window system. -/
def window? : Effect → Option Window.Request
  | window r => some r
  | _ => none

/-- The lines for the user. -/
def line? : Effect → Option Text
  | print line => some line
  | _ => none

end Effect

/-- The text that the user sees: every line with a line feed after it. -/
def printed (effects : List Effect) : Text :=
  (effects.filterMap Effect.line?).flatMap fun line => line ++ "\n"

/-- The lines of the log that reach a level. -/
def logLines (lowest : Log.Level) (effects : List Effect) : List String :=
  ((effects.filterMap Effect.entry?).filter (·.reaches lowest)).map Log.Entry.line

end Cosmac
