/-!
# What is asked of the window system

The requests that the program makes of the window system, in the order in which it makes them. The
size of the window cannot be changed by the user, and everything on the canvas is a filled
rectangle.
-/

namespace Cosmac.Window

/-- One request of the window system. -/
inductive Request where
  | title (text : String)
  /-- The user may not change the size. -/
  | fixSize
  /-- A black canvas. -/
  | canvas (width height : Int)
  | pack
  /-- The keyboard goes to this window. -/
  | focus
  /-- Removes every rectangle from the canvas. -/
  | clear
  /-- A white rectangle. -/
  | rectangle (left top right bottom : Int)
  /-- Asks to be called after so many milliseconds. -/
  | after (milliseconds : Nat)
  | quit
  | destroy
  deriving DecidableEq, Repr

end Cosmac.Window
