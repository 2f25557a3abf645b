import Cosmac.Text.Lower
import Cosmac.Word

/-!
# The keyboard as a keypad

The sixteen keys of the pad lie on the left of the keyboard, in four rows of four:

    1 2 3 C        1 2 3 4
    4 5 6 D   on   Q W E R
    7 8 9 E        A S D F
    A 0 B F        Z X C V

Symbols of keys are read without regard to capital and small letters.
-/

namespace Cosmac.Keyboard

/-- The key of the pad on each key of the keyboard. -/
def layout : List (String × Nibble) :=
  [("1", 0x1), ("2", 0x2), ("3", 0x3), ("4", 0xC),
   ("q", 0x4), ("w", 0x5), ("e", 0x6), ("r", 0xD),
   ("a", 0x7), ("s", 0x8), ("d", 0x9), ("f", 0xE),
   ("z", 0xA), ("x", 0x0), ("c", 0xB), ("v", 0xF)]

/-- The symbol of the key that closes the window. -/
def escape : String := "escape"

/-- The symbol in small letters. -/
def plain (symbol : String) : String :=
  (Text.ofString symbol).toLower.toString

/-- The key of the pad that a symbol in small letters stands for. -/
def key? (symbol : String) : Option Nibble :=
  (layout.find? fun entry => entry.1 == symbol).map (·.2)

end Cosmac.Keyboard
