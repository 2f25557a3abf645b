import Cosmac.Window.Basic

/-!
# Windows as text

A window system that is written down: one line for each event that it reports and one line for each
request that is made of it.
-/

namespace Cosmac.Window

namespace Event

/-- The events of a line: a word for the kind, and the symbol of the key or a number of ticks. -/
def ofLine (line : String) : List Event :=
  match (line.splitOn " ").filter (· != "") with
  | ["press", symbol] => [.press symbol]
  | ["release", symbol] => [.release symbol]
  | ["tick"] => [.tick]
  | ["tick", times] => List.replicate (times.toNat?.getD 1) .tick
  | ["close"] => [.close]
  | _ => []

end Event

namespace Request

/-- The line of a request. -/
def line : Request → String
  | title text => "title " ++ text
  | fixSize => "fixed size"
  | canvas width height => "canvas " ++ toString width ++ " by " ++ toString height
  | pack => "pack"
  | focus => "focus"
  | clear => "clear"
  | rectangle left top right bottom =>
    "rectangle " ++ " ".intercalate ([left, top, right, bottom].map toString)
  | after milliseconds => "after " ++ toString milliseconds
  | quit => "quit"
  | destroy => "destroy"

end Request

end Cosmac.Window
