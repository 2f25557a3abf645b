/-!
# Paths

A path is a list of names below a starting place. `Path.ofString` drops what does not lead anywhere,
empty names and single dots, and keeps `..`, which may lead out of a directory that is reached
through a link. A path is shown in this shorter form.
-/

namespace Cosmac

/-- A way to a place among the files. -/
structure Path where
  /-- The slashes that a path from the top starts with; nothing in a path from the working
  directory. -/
  root : String := ""
  parts : List String
  deriving DecidableEq, Repr

namespace Path

/-- The parts of a text between slashes. -/
def split : List Char → List (List Char)
  | [] => [[]]
  | c :: rest =>
    if c = '/' then [] :: split rest
    else
      match split rest with
      | [] => [[c]]
      | part :: parts => (c :: part) :: parts

/-- The parts of a path as it is written, in order and with the empty ones. -/
def components (s : String) : List String :=
  (split s.toList).map String.ofList

/-- Two slashes at the start are kept, as they may have a meaning of their own. -/
def rootOf (s : String) : String :=
  match (s.toList.takeWhile (· == '/')).length with
  | 0 => ""
  | 2 => "//"
  | _ => "/"

/-- The path that a text stands for. -/
def ofString (s : String) : Path :=
  ⟨rootOf s, (components s).filter fun part => part != "" && part != "."⟩

/-- The path as it is shown. -/
def text (p : Path) : String :=
  if p.root = "" ∧ p.parts = [] then "." else p.root ++ "/".intercalate p.parts

/-- The last part. -/
def name (p : Path) : String :=
  p.parts.getLast?.getD ""

/-- The path of the directory that a path lies in. -/
def parent (p : Path) : Path :=
  { p with parts := p.parts.dropLast }

/-- Steps back: the last part is dropped, and `..` is added where there is none to drop. -/
def stepBack (parts : List String) : List String :=
  match parts.getLast? with
  | none => [".."]
  | some last => if last = ".." then parts ++ [".."] else parts.dropLast

/-- The path with every `..` taken back against the name before it. -/
def collapse (p : Path) : Path :=
  { p with
    parts := p.parts.foldl (fun parts part => if part = ".." then stepBack parts else parts ++ [part])
      [] }

/-- The ending of a file name with its dot. Dots at the start of a name do not count. -/
def ending (name : String) : String :=
  let stem := name.toList.dropWhile (· == '.')
  if stem.contains '.' then
    String.ofList ('.' :: (stem.reverse.takeWhile (· != '.')).reverse)
  else ""

end Path

end Cosmac
