import Cosmac.Files.Path
import Cosmac.Picture.Png
import Cosmac.Text.Quoted
import Cosmac.Text.Utf8

/-!
# Files

The files that the program can see: what stands at which place below the working directory. Reading
and writing follow a path part by part, and every part but the last has to be a directory. What
stands above the working directory is not known, except that these are directories.
-/

namespace Cosmac

/-- What a file holds. -/
inductive Files.Content where
  | bytes (content : List Byte)
  | picture (image : Image)
  deriving DecidableEq, Repr

/-- What stands at a place. -/
inductive Files.Entry where
  | file (content : Files.Content)
  | directory
  deriving DecidableEq, Repr

/-- The names on the way from the working directory. -/
abbrev Files.Place := List String

/-- What stands at which place; the working directory is not listed. -/
structure Files where
  entries : List (Files.Place × Files.Entry) := []
  deriving Repr

namespace Files

/-- Why something cannot be done with a path. -/
inductive Cause where
  | missing
  | alreadyThere
  | notDirectory
  | isDirectory
  deriving DecidableEq, Repr

/-- The number that goes with a cause, and its name. -/
def Cause.text : Cause → String
  | missing => "[Errno 2] No such file or directory"
  | alreadyThere => "[Errno 17] File exists"
  | notDirectory => "[Errno 20] Not a directory"
  | isDirectory => "[Errno 21] Is a directory"

/-- A path that could not be used. -/
structure Error where
  cause : Cause
  path : String
  deriving DecidableEq, Repr

/-- What the user is told. -/
def Error.message (e : Error) : Text :=
  e.cause.text ++ ": " ++ (Text.ofString e.path).quoted

/-- The place where paths from the top start. -/
def top : Place := ["/"]

/-- The path of a place. -/
def pathOf (place : Place) : String :=
  if place.head? = some "/" then "/" ++ "/".intercalate (place.drop 1) else "/".intercalate place

/-- What stands at a place. -/
def entry? (fs : Files) (place : Place) : Option Entry :=
  if place.all (· == "..") || place == top then some .directory
  else (fs.entries.find? fun e => e.1 == place).map (·.2)

/-- Puts something at a place. -/
def put (fs : Files) (place : Place) (entry : Entry) : Files :=
  ⟨(place, entry) :: fs.entries.filter fun e => e.1 != place⟩

/-- Goes from a place, which has to be a directory, to one of its parts. -/
def enter (fs : Files) (here : Place) (part : String) : Except Cause Place :=
  match fs.entry? here with
  | none => .error .missing
  | some (.file _) => .error .notDirectory
  | some .directory =>
    if part = "" ∨ part = "." then .ok here
    else if part = ".." then .ok (if here = top then top else Path.stepBack here)
    else .ok (here ++ [part])

/-- The place that a path leads to; there may be nothing yet. -/
def place (fs : Files) (path : String) : Except Cause Place :=
  if path = "" then .error .missing
  else (Path.components path).foldlM fs.enter (if Path.rootOf path = "" then [] else top)

/-- The path leads to a directory. -/
def isDirectory (fs : Files) (path : String) : Bool :=
  match fs.place path with
  | .ok place => fs.entry? place == some .directory
  | .error _ => false

/-- What the file at a path holds. -/
def read (fs : Files) (path : String) : Except Error Content :=
  match fs.place path with
  | .error cause => .error ⟨cause, path⟩
  | .ok place =>
    match fs.entry? place with
    | none => .error ⟨.missing, path⟩
    | some .directory => .error ⟨.isDirectory, path⟩
    | some (.file content) => .ok content

/-- Puts a file at a path, in place of one that is there. -/
def write (fs : Files) (path : String) (content : Content) : Except Error Files :=
  match fs.place path with
  | .error cause => .error ⟨cause, path⟩
  | .ok place =>
    if fs.entry? place = some .directory then .error ⟨.isDirectory, path⟩
    else .ok (fs.put place (.file content))

/-- Makes a directory at a path. -/
def makeDirectory (fs : Files) (path : String) : Except Error Files :=
  match fs.place path with
  | .error cause => .error ⟨cause, path⟩
  | .ok place =>
    if (fs.entry? place).isSome then .error ⟨.alreadyThere, path⟩
    else .ok (fs.put place .directory)

/-- Makes a directory with all directories above it, as far as they are not there. The parts of the
path are given from the last to the first. -/
def makeAll (fs : Files) (root : String) (backward : List String) : Except Error Files :=
  let path := (Path.mk root backward.reverse).text
  let make (fs : Files) : Except Error Files :=
    match fs.makeDirectory path with
    | .ok fs => .ok fs
    | .error e => if fs.isDirectory path then .ok fs else .error e
  match fs.makeDirectory path, backward with
  | .error ⟨.missing, _⟩, _ :: above => (fs.makeAll root above).bind make
  | _, _ => make fs

/-- Makes sure that a directory is there. -/
def ensureDirectory (fs : Files) (path : Path) : Except Error Files :=
  fs.makeAll path.root path.parts.reverse

/-- The files with one more, for which the directories above it are made. -/
def add (fs : Files) (path : String) (entry : Entry) : Except Error Files := do
  let p := Path.ofString path
  match entry with
  | .directory => fs.ensureDirectory p
  | .file content =>
    let fs ← fs.ensureDirectory p.parent
    fs.write p.text content

/-- The bytes of a file. -/
def Content.toBytes : Content → List Byte
  | bytes content => content
  | picture image => Image.Png.encode image

/-- The lines of a file. -/
def Content.lines (c : Content) : List String :=
  let text := ((Text.ofUtf8? c.toBytes).getD []).toString
  let parts := text.splitOn "\n"
  if parts.getLast? = some "" then parts.dropLast else parts

/-- The file of some lines. -/
def Content.ofLines (lines : List String) : Content :=
  .bytes (lines.flatMap fun line => (Text.ofString (line ++ "\n")).toUtf8)

end Files

end Cosmac
