import Cosmac.Command.Options
import Cosmac.Command.Usage
import Cosmac.Dialect.File
import Cosmac.Machine.Program
import Cosmac.Picture.Screenshot
import Cosmac.Random
import Cosmac.Window.Basic

/-!
# Running the command

What the command does in given surroundings: it reads the program and the dialect, runs the machine
for a number of frames or in a window, and reports. All that it does to the outside is in the effects
and in the files that it leaves. Whether its lines can be shown is another question, see
`Cosmac.Command.runOn`.

The log can be kept in a file as well. That file is made before anything is read, and it grows with
every entry, so a program or a dialect that is read from the same path is what the log then holds.
-/

namespace Cosmac.Command

/-- What the command finds around it. -/
structure Surroundings where
  files : Files := {}
  /-- The mixer of the sound library, if it is installed. -/
  library : Option Mixer := none
  /-- Where random numbers start unless the user says so. -/
  entropy : Int := 0
  /-- What the window system reports while the window is open. -/
  events : List Window.Event := []
  /-- The words in which a file for the dialect is refused that cannot be decoded or parsed. -/
  wording : Dialect.File.Wording := {}

/-- What ended the command in an irregular way. -/
inductive Failure where
  /-- The log cannot be kept in the file that it was to be kept in. -/
  | log (e : Files.Error)
  | dialect (e : Dialect.File.Error)
  | screenshot (e : Screenshot.Error)
  | sound (e : Speaker.Error)

/-- How the command ended. -/
inductive Ending where
  /-- With a status: zero if all went well. -/
  | status (code : Nat)
  /-- After showing help. -/
  | help
  | mistake (e : UsageError)
  | failure (e : Failure)

/-- What came of the command. -/
structure Outcome where
  effects : List Effect
  files : Files
  ending : Ending

namespace Options

/-- The lowest level of the log. -/
def level (o : Options) : Log.Level :=
  if o.verbose then .debug else .warning

/-- The path of the file for the log. -/
def logPath? (o : Options) : Option String :=
  o.debugLog.map fun p => p.collapse.text

/-- The files after the given effects: the entries in the log are in the file for it. -/
def keepLog (o : Options) (effects : List Effect) (fs : Files) : Except Files.Error Files :=
  match o.logPath? with
  | none => .ok fs
  | some path => fs.write path (.ofLines (logLines o.level effects))

/-- The dialect that is asked for. -/
def readDialect (o : Options) (fs : Files) : Except Dialect.File.Error Dialect :=
  match o.dialect with
  | .profile p => .ok p.dialect
  | .file path => Dialect.File.read fs path.text

/-- What is reported before the dialect is read. -/
def announceDialect (o : Options) : List Effect :=
  match o.dialect with
  | .profile _ => []
  | .file path => [.notice (.readingDialect path.text)]

end Options

/-- A machine with its program, ready to run. -/
structure Ready where
  setup : Setup
  machine : Machine
  /-- The size of the program in bytes. -/
  size : Nat

/-- Why a machine cannot be made ready; the user is told and the command ends. -/
inductive SetupError where
  | seed (e : Random.SeedError)
  | program (e : Program.Error)

/-- What the user is told. -/
def SetupError.message : SetupError → String
  | seed e => e.message
  | program e => e.message

/-- Makes a machine ready. -/
def prepare (o : Options) (entropy : Int) (dialect : Dialect) (content : List Byte) :
    Except SetupError Ready := do
  let random ← (Random.ofSeed? (o.seed.getD entropy)).mapError .seed
  let (machine, size) ← (Machine.boot (.bytes content)).mapError .program
  .ok ⟨{ dialect, random, tracing := o.verbose }, machine, size⟩

/-- Lines for the user. -/
def say (lines : List String) : List Effect :=
  lines.map fun line => .print (Text.ofString line)

/-- What the user is told of a program that was loaded. -/
def introduction (path : Path) (ready : Ready) : List Effect :=
  .ofMachine (.loaded ready.size) ::
    say ["Loading ROM: " ++ path.text ++ " (" ++ toString ready.size ++ " bytes)",
      "Quirks enabled:", ready.setup.dialect.describe]

/-- The console of a machine that has not been started. -/
def Ready.console (ready : Ready) : Console :=
  { machine := ready.machine, speaker := .silent {} }

/-- The text of a truth value. -/
def truth (b : Bool) : String :=
  if b then "True" else "False"

/-- What the user is told of a machine after its last frame. -/
def report (ascii : Bool) (m : Machine) : List String :=
  ["Execution completed!"] ++ m.counters.report ++
    ["", "Emulator crashed: " ++ truth m.crashed, "Program counter: " ++ m.pc.text] ++
    if ascii then ["", "Display output:", m.display.bitmap.text] else []

/-- The status of a run. -/
def statusOf (fault? : Option Fault) : Nat :=
  if fault?.isSome then 1 else 0

/-- Runs a number of frames without a window. -/
def runHeadless (o : Options) (ready : Ready) : Console.Session × List Effect :=
  let session := ready.console.run ready.setup o.pace o.frames
  (session, session.effects ++ say (session.fault?.toList.map Fault.announcement) ++
    say (report o.ascii session.console.machine))

/-- Runs in a window until the window system has nothing more to report. -/
def runWindow (o : Options) (around : Surroundings) (ready : Ready) :
    Except Speaker.Error Window.Step := do
  let made ← Window.create ("CHIP-8: " ++ o.program.name) o.scale around.library ready.console
  let shown := made.window.start
  let last := shown.window.handleAll ready.setup o.pace around.events
  .ok ⟨last.window.finish, made.effects ++ shown.effects ++ last.effects⟩

/-- What is said before the window opens. -/
def invitation : String :=
  "Use keyboard for input (1234/QWER/ASDF/ZXCV), press ESC to exit"

/-- Ends the command: the log is kept. -/
def conclude (o : Options) (fs : Files) (effects : List Effect) (ending : Ending) : Outcome :=
  match o.keepLog effects fs with
  | .ok fs => ⟨effects, fs, ending⟩
  | .error e => ⟨effects, fs, .failure (.log e)⟩

/-- Runs a machine that is ready. -/
def runReady (o : Options) (around : Surroundings) (fs : Files) (before : List Effect)
    (ready : Ready) : Outcome :=
  let before := before ++ introduction o.program ready
  if o.headless then
    let (session, effects) := runHeadless o ready
    let effects := before ++ effects
    let status := Ending.status (statusOf session.fault?)
    let done := conclude o fs effects status
    match o.screenshot with
    | none => done
    | some path =>
      match Screenshot.save session.console.machine.display.bitmap path o.scale done.files with
      | .ok fs => { done with
          effects := effects ++ say ["Screenshot saved to: " ++ path.text], files := fs }
      | .error e => { done with ending := .failure (.screenshot e) }
  else
    let before := before ++ say [invitation]
    match runWindow o around ready with
    | .error e => conclude o fs before (.failure (.sound e))
    | .ok last => conclude o fs (before ++ last.effects) (.status (statusOf last.window.fault?))

/-- Reads the dialect and makes the machine ready for a program that has been read. -/
def runProgram (o : Options) (around : Surroundings) (fs : Files) (content : List Byte) :
    Outcome :=
  let before := o.announceDialect
  let refuse (message : Text) : Outcome :=
    conclude o fs (before ++ [.print ("Error: " ++ message)]) (.status 1)
  match o.keepLog before fs with
  | .error e => ⟨before, fs, .failure (.log e)⟩
  | .ok fs =>
    match o.readDialect fs with
    | .error e =>
      if e.isExpected then refuse (e.messageIn around.wording)
      else conclude o fs before (.failure (.dialect e))
    | .ok dialect =>
      match prepare o around.entropy dialect content with
      | .error e => refuse e.message
      | .ok ready => runReady o around fs before ready

/-- What the user is told of a program that cannot be read. -/
def unreadable (path : Path) (e : Files.Error) : Text :=
  match e.cause with
  | .missing => "ROM file not found: " ++ path.text
  | _ => "Cannot read ROM file " ++ path.text ++ ": " ++ e.message

/-- Does what the options ask for. -/
def runOptions (o : Options) (around : Surroundings) : Outcome :=
  match o.keepLog [] around.files with
  | .error e => ⟨[], around.files, .failure (.log e)⟩
  | .ok fs =>
    match fs.read o.program.text with
    | .error e => ⟨[.print (unreadable o.program e)], fs, .status 1⟩
    | .ok content => runProgram o around fs content.toBytes

/-- Runs the command with the words of its command line. -/
def run (around : Surroundings) (words : List String) : Outcome :=
  match Options.read words with
  | .ok o => runOptions o around
  | .error .help => ⟨say help, around.files, .help⟩
  | .error (.mistake e) => ⟨[], around.files, .mistake e⟩

/-- The lowest level of the log that the words of a command line ask for. -/
def levelOf (words : List String) : Log.Level :=
  match Options.read words with
  | .ok o => o.level
  | .error _ => .warning

end Cosmac.Command
