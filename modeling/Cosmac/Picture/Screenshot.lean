import Cosmac.Files.Basic
import Cosmac.Text.Lower

/-!
# Screenshots

A screenshot is an image in a file. The kind of the file is told by the ending of its name, of which
only the one kind is known; the directories above it are made when they are not there.
-/

namespace Cosmac.Screenshot

/-- Why there is no screenshot. -/
inductive Error where
  | file (e : Files.Error)
  | scale (e : Bitmap.ScaleError)
  /-- The ending of the name, in small letters, stands for no kind of image. -/
  | unknownEnding (ending : Text)
  deriving DecidableEq, Repr

/-- What the user is told. -/
def Error.message : Error → Text
  | file e => e.message
  | scale e => e.message
  | unknownEnding ending => "unknown file extension: " ++ ending

/-- The scale unless another is asked for. -/
def defaultScale : Int := 8

/-- The endings of image files. -/
def endings : List Text := [".png", ".apng"]

/-- The files with a screenshot among them. -/
def save (b : Bitmap) (path : Path) (scale : Int) (fs : Files) : Except Error Files := do
  let fs ← (fs.ensureDirectory path.parent).mapError .file
  let image ← (b.image? scale).mapError .scale
  let ending := (Text.ofString (Path.ending path.name)).toLower
  if !endings.contains ending then .error (.unknownEnding ending)
  (fs.write path.text (.picture image)).mapError .file

end Cosmac.Screenshot
