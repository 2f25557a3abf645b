import Cosmac.Command.Output
import Cosmac.Window.Script

/-!
# The program

The command on a real system. The files that the options name are looked up first, then the command
runs on what was found, and at last its lines are printed, in UTF-8, and the files that it made are
written.

There is no window system here. Its events are read from the standard input, see
`Window.Event.ofLine`, and what is asked of it is printed.
-/

namespace Cosmac.Terminal

/-- What stands at a path, if it can be seen. -/
def look (path : String) : IO (Option Files.Entry) := do
  try
    let content ← IO.FS.readBinFile path
    return some (.file (.bytes (content.toList.map fun b => BitVec.ofNat 8 b.toNat)))
  catch
    | .inappropriateType .. => return some .directory
    | _ => return none

/-- The files with those on the way to a path, as far as the way goes. -/
def survey (fs : Files) (path : Path) : IO Files := do
  let mut fs := fs
  for n in List.range path.parts.length do
    let here := { path with parts := path.parts.take (n + 1) }
    match fs.place here.text with
    | .error _ => return fs
    | .ok place =>
      if (fs.entry? place).isNone then
        match ← look here.text with
        | some entry => fs := fs.put place entry
        | none => return fs
  return fs

/-- The paths that options name. -/
def paths (o : Command.Options) : List Path :=
  let dialect := match o.dialect with
    | .file path => [path]
    | .profile _ => []
  o.program :: dialect ++ o.screenshot.toList ++ (o.debugLog.map Path.collapse).toList

/-- Writes what is new among the files. -/
def store (before after : Files) : IO Unit := do
  for (place, entry) in after.entries.reverse do
    if before.entry? place != some entry then
      let path := Files.pathOf place
      match entry with
      | .directory => IO.FS.createDirAll path
      | .file content =>
        IO.FS.writeBinFile path ⟨(content.toBytes.map fun b => UInt8.ofNat b.toNat).toArray⟩

/-- The events on the standard input. -/
partial def events (input : IO.FS.Stream) (before : Array Window.Event) :
    IO (List Window.Event) := do
  let line ← input.getLine
  if line.isEmpty then return before.toList
  events input (before ++ (Window.Event.ofLine line.trimAscii.toString).toArray)

/-- What the user is told of an irregular end. -/
def failureText : Command.Failure → Text
  | .log e => e.message
  | .dialect e => e.message
  | .screenshot e => e.message
  | .sound e => e.message

/-- Ends the program and gives its status. -/
def finish (ending : Command.Ending) : IO UInt32 := do
  match ending with
  | .status code => return UInt32.ofNat code
  | .help => return 0
  | .mistake e =>
    for line in Command.usage do IO.eprintln line
    IO.eprintln (Command.name ++ ": error: " ++ e.message.toString)
    return 2
  | .failure e =>
    IO.eprintln (failureText e).toString
    return 1

/-- Ends the program over a line that cannot be printed and gives its status. -/
def breakOff (line : Text) : IO UInt32 := do
  IO.eprintln ("A line cannot be shown: " ++ line.toString)
  return 1

/-- Prints the lines of the command and what is asked of the window system. -/
def printAll (effects : List Effect) : IO Unit := do
  for effect in effects do
    match effect with
    | .print line => IO.println line.toString
    | .window request => IO.println request.line
    | _ => pure ()

/-- The files of a command that was broken off: the log goes as far as the command came. -/
def filesAfter (around : Command.Surroundings) (words : List String) (effects : List Effect) :
    Files :=
  match Command.Options.read words with
  | .ok o => (o.keepLog effects around.files).toOption.getD around.files
  | .error _ => around.files

/-- Runs the command with the words of its command line. -/
def run (words : List String) : IO UInt32 := do
  let mut around : Command.Surroundings := { entropy := ← IO.rand 0 0xFFFFFFFF }
  if let .ok o := Command.Options.read words then
    let files ← (paths o).foldlM survey {}
    let events ← if o.headless then pure [] else events (← IO.getStdin) #[]
    around := { around with files, events }
  let (effects, files, leave) := match Command.runOn .utf8 around words with
    | .ended outcome => (outcome.effects, outcome.files, finish outcome.ending)
    | .brokenOff effects line => (effects, filesAfter around words effects, breakOff line)
  printAll effects
  for line in logLines (Command.levelOf words) effects do IO.eprintln line
  store around.files files
  leave

end Cosmac.Terminal

/-- Runs the command and ends with its status. -/
def main (words : List String) : IO UInt32 :=
  Cosmac.Terminal.run words
