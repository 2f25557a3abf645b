import Cosmac.Display
import Cosmac.Picture.Runs

/-!
# Bitmaps

A bitmap is a rectangle of dots of any size. It can be written as text, two characters for each dot,
and as an image in which every dot has become a square of equal pixels. An image is kept as runs of
equal rows, and a row as runs of equal pixels, so a large scale costs nothing.
-/

namespace Cosmac

/-- A rectangle of dots, row by row. -/
structure Bitmap where
  width : Nat
  rows : List (List Bool)
  deriving DecidableEq, Repr

/-- An image of black and white pixels. -/
structure Image where
  width : Nat
  height : Nat
  rows : Runs (Runs Bool)
  deriving DecidableEq, Repr

/-- The pixels row by row, white ones `true`. -/
def Image.pixels (m : Image) : List (List Bool) :=
  m.rows.toList.map Runs.toList

/-- The dots of the display. -/
def Display.bitmap (d : Display) : Bitmap :=
  ⟨Display.width, d.toLists⟩

namespace Bitmap

/-- The two characters of a dot. -/
def glyph (on : Bool) : List Char :=
  if on then ['█', '█'] else [' ', ' ']

/-- The bitmap as lines of text. -/
def lines (b : Bitmap) : List String :=
  b.rows.map fun row => String.ofList (row.flatMap glyph)

/-- The bitmap as text, the lines separated by line feeds. -/
def text (b : Bitmap) : String :=
  "\n".intercalate b.lines

/-- A scale below one makes no image. -/
structure ScaleError where
  scale : Int
  deriving DecidableEq, Repr

/-- What the user is told. -/
def ScaleError.message (e : ScaleError) : String :=
  "scale must be positive, got " ++ toString e.scale

/-- The image in which every dot is a square of `scale` by `scale` pixels. -/
def image? (b : Bitmap) (scale : Int) : Except ScaleError Image :=
  if scale < 1 then .error ⟨scale⟩
  else
    let n := scale.toNat
    .ok ⟨b.width * n, b.rows.length * n,
      ((Runs.ofList b.rows).stretch n).mapValues fun row => (Runs.ofList row).stretch n⟩

end Bitmap

end Cosmac
