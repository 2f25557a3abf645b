import Cosmac.Frame
import Cosmac.Window.Keyboard

/-!
# The window

A window around a console. It answers the events of the window system one after another: keys go to
the keypad, and a call that was asked for runs one frame and asks for the next call. The display is
painted when a frame has changed it.

The window is closed by the user, by the escape key or by a fault, and then the tone is turned off.
When the window system has lost the canvas the window only stops answering. A window that is closing
does nothing more.
-/

namespace Cosmac

/-- What the window system tells the window. -/
inductive Window.Event where
  /-- A key of the keyboard went down, or is repeated. -/
  | press (symbol : String)
  | release (symbol : String)
  /-- The oldest call that was asked for is made, if there is one. -/
  | tick
  /-- The user closes the window. -/
  | close
  /-- The canvas is lost: the next attempt to paint on it fails. -/
  | loseCanvas
  deriving DecidableEq, Repr

/-- A window with the console behind it. -/
structure Window where
  console : Console
  /-- The size of a cell of the display. -/
  scale : Int
  /-- The keys of the pad that are held down on the keyboard. -/
  held : Table 4 Bool := .fill false
  closing : Bool := false
  /-- How many calls have been asked for and not yet made. -/
  pending : Nat := 0
  /-- The next attempt to paint fails. -/
  canvasLost : Bool := false
  /-- The fault that closed the window. -/
  fault? : Option Fault := none

namespace Window

/-- The time from one frame to the next, in milliseconds. -/
def frameInterval : Nat := 1000 / 60

/-- The scale unless another is asked for. -/
def defaultScale : Int := 10

/-- The title unless another is asked for. -/
def defaultTitle : String := "CHIP-8 Display"

/-- A window and what was done on the way to it. -/
structure Step where
  window : Window
  effects : List Effect

/-- The square of a cell. -/
def square (scale : Int) (c : Cell) : Request :=
  let x := c.col.toNat * scale
  let y := c.row.toNat * scale
  .rectangle x y (x + scale) (y + scale)

/-- The requests that paint a display. -/
def paint (scale : Int) (d : Display) : List Effect :=
  .window .clear :: d.lit.map fun c => .window (square scale c)

/-- A window with its speaker, before it is shown. -/
def create (title : String) (scale : Int) (library : Option Mixer) (console : Console) :
    Except Speaker.Error Step := do
  let chosen := Speaker.choose Speaker.defaultPitch library
  let speaker ← chosen.result
  .ok {
    window := { console := { console with speaker }, scale }
    effects :=
      [.window (.title title), .window .fixSize,
        .window (.canvas (Display.width * scale) (Display.height * scale)), .window .pack] ++
      chosen.requests.map .mixer ++
      (chosen.disabled.toList.map fun e => .notice (.soundDisabled e.message)) ++
      [.window .focus] }

/-- Shows the window: the display is painted and the first call asked for. -/
def start (w : Window) : Step where
  window := { w with pending := w.pending + 1 }
  effects := paint w.scale w.console.machine.display ++ [.window (.after 0)]

/-- Closes the window, unless it is closing already. -/
def shut (w : Window) : Step :=
  if w.closing then ⟨w, []⟩
  else
    let (speaker, actions) := w.console.speaker.stop
    ⟨{ w with console := { w.console with speaker }, closing := true },
      actions.map Effect.ofAction ++ [.window .quit, .window .destroy]⟩

/-- A key of the pad goes down, or is repeated while it is down. -/
def pressKey (w : Window) (symbol : String) (k : Nibble) : Step :=
  if w.held[k] then ⟨w, []⟩
  else
    ⟨{ w with
        held := w.held.set k true
        console := { w.console with machine := w.console.machine.setKey k true } },
      [.notice (.keyPressed symbol k)]⟩

/-- A key of the pad comes up. -/
def releaseKey (w : Window) (k : Nibble) : Step :=
  if w.held[k] then
    ⟨{ w with
        held := w.held.set k false
        console := { w.console with machine := w.console.machine.setKey k false } }, []⟩
  else ⟨w, []⟩

/-- Runs a frame and asks for the next call. -/
def runFrame (s : Setup) (pace : Pace) (w : Window) : Step :=
  let result := w.console.frame s pace (!w.canvasLost)
  let w := { w with console := result.console }
  match result.ending with
  | .finished _ =>
    ⟨{ w with pending := w.pending + 1 },
      result.effects ++ result.picture?.toList.flatMap (paint w.scale) ++
        [.window (.after frameInterval)]⟩
  | .fault f =>
    let closed := { w with fault? := some f }.shut
    ⟨closed.window, result.effects ++ .print f.announcement :: closed.effects⟩
  | .refused => ⟨{ w with closing := true, canvasLost := false }, result.effects⟩

/-- Answers an event. -/
def handle (s : Setup) (pace : Pace) (w : Window) : Event → Step
  | .press symbol =>
    if w.closing then ⟨w, []⟩
    else
      let symbol := Keyboard.plain symbol
      match Keyboard.key? symbol with
      | some k => w.pressKey symbol k
      | none => if symbol = Keyboard.escape then w.shut else ⟨w, []⟩
  | .release symbol =>
    if w.closing then ⟨w, []⟩
    else
      match Keyboard.key? (Keyboard.plain symbol) with
      | some k => w.releaseKey k
      | none => ⟨w, []⟩
  | .tick =>
    match w.pending with
    | 0 => ⟨w, []⟩
    | n + 1 =>
      let w := { w with pending := n }
      if w.closing then ⟨w, []⟩ else w.runFrame s pace
  | .close => w.shut
  | .loseCanvas => ⟨{ w with canvasLost := true }, []⟩

/-- Answers events one after another. -/
def handleAll (s : Setup) (pace : Pace) (w : Window) : List Event → Step
  | [] => ⟨w, []⟩
  | e :: rest =>
    let first := w.handle s pace e
    let last := first.window.handleAll s pace rest
    ⟨last.window, first.effects ++ last.effects⟩

/-- The window after its last event. -/
def finish (w : Window) : Window :=
  { w with closing := true }

end Window

end Cosmac
