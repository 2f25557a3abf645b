import Cosmac.Machine.Program
import Cosmac.Proofs.Redrawing
import Cosmac.Proofs.Window.Handling

/-!
# The canvas shows the display

The window system keeps what is on the canvas, and the window never looks at it. What is there
follows from what the window asked for: every rectangle since the canvas was cleared last. An open
window paints only after a frame that ended in the regular way, and such a frame hands over a picture
exactly if the display may be another one than before. So the canvas is always a picture of the
display as it is.
-/

namespace Cosmac

/-- A frame that ends in the regular way hands over its display, unless that is still the one from
before the frame. -/
theorem Console.display_of_finished {s : Setup} {pace : Pace} {accepts shown : Bool} {c : Console}
    (done : (c.frame s pace accepts).ending = .finished shown) :
    (c.frame s pace accepts).console.machine.display =
      (c.frame s pace accepts).picture?.getD c.machine.display := by
  have begins : c.machine.InStep c.machine.display := .inr rfl
  have inStep : (c.frame s pace accepts).console.machine.InStep
      ((c.frame s pace accepts).taken?.getD c.machine.display) :=
    (inStep_of_frame accepts begins).1
  have clean : (c.frame s pace accepts).console.machine.dirty = false :=
    ((inStep_of_frame accepts begins).2 shown done).1
  have taken : (c.frame s pace accepts).taken? = (c.frame s pace accepts).picture? :=
    if_neg (by simp [done])
  rw [← taken]
  exact inStep.display clean

namespace Window

/-! ## The canvas -/

/-- A rectangle on the canvas. -/
structure Rectangle where
  left : Int
  top : Int
  right : Int
  bottom : Int
  deriving DecidableEq, Repr

/-- What a request makes of the rectangles on the canvas, the one drawn last at the end. -/
def Request.drawOn (canvas : List Rectangle) : Request → List Rectangle
  | .clear => []
  | .rectangle left top right bottom => canvas ++ [⟨left, top, right, bottom⟩]
  | _ => canvas

/-- What is on the canvas after some effects: the rectangles since it was cleared last. -/
def canvasAfter (canvas : List Rectangle) (effects : List Effect) : List Rectangle :=
  (requests effects).foldl Request.drawOn canvas

/-- The rectangle of a cell. -/
def Rectangle.ofCell (scale : Int) (c : Cell) : Rectangle where
  left := c.col.toNat * scale
  top := c.row.toNat * scale
  right := (c.col.toNat + 1) * scale
  bottom := (c.row.toNat + 1) * scale

/-- The picture of a display: one rectangle for each cell that is on, in reading order. -/
def picture (scale : Int) (d : Display) : List Rectangle :=
  d.lit.map (Rectangle.ofCell scale)

variable {s : Setup} {pace : Pace} {w : Window} {e : Event} {events : List Event}
  {scale : Int} {canvas : List Rectangle}

/-- Two stretches of effects are drawn one after the other. -/
theorem canvasAfter_append (canvas : List Rectangle) (first last : List Effect) :
    canvasAfter canvas (first ++ last) = canvasAfter (canvasAfter canvas first) last := by
  rw [canvasAfter, requests_append, List.foldl_append]
  rfl

/-- Without a request the canvas stays as it is. -/
theorem canvasAfter_of_silent {effects : List Effect} (silent : requests effects = []) :
    canvasAfter canvas effects = canvas := by
  rw [canvasAfter, silent]
  rfl

/-- A square adds one rectangle to the canvas. -/
theorem drawOn_square (scale : Int) (c : Cell) (canvas : List Rectangle) :
    (square scale c).drawOn canvas = canvas ++ [.ofCell scale c] := by
  rw [Rectangle.ofCell, Int.add_mul, Int.add_mul, Int.one_mul]
  rfl

/-- Squares add their rectangles in order. -/
theorem foldl_drawOn_squares (scale : Int) (cells : List Cell) (canvas : List Rectangle) :
    (cells.map (square scale)).foldl Request.drawOn canvas =
      canvas ++ cells.map (Rectangle.ofCell scale) := by
  induction cells generalizing canvas with
  | nil => exact (List.append_nil canvas).symm
  | cons c cells ih =>
    rw [List.map_cons, List.foldl_cons, drawOn_square, ih, List.append_assoc]
    rfl

/-- To paint a display is to clear the canvas and to ask for a square for each lit cell. -/
theorem requests_paint (scale : Int) (d : Display) :
    requests (paint scale d) = .clear :: d.lit.map (square scale) := by
  simp [requests, paint, Effect.window?, List.filterMap_map, Function.comp_def]

/-- **To paint a display leaves its picture**, whatever was on the canvas. -/
theorem canvasAfter_paint (scale : Int) (d : Display) (canvas : List Rectangle) :
    canvasAfter canvas (paint scale d) = picture scale d := by
  rw [canvasAfter, requests_paint, List.foldl_cons]
  exact foldl_drawOn_squares scale d.lit []

/-! ## One event -/

/-- The window paints with the scale, and the canvas shows its display. -/
structure Shows (scale : Int) (w : Window) (canvas : List Rectangle) : Prop where
  sized : w.scale = scale
  pictured : canvas = picture scale w.console.machine.display

/-- A window that starts shows the display of its console. -/
theorem shows_start (w : Window) (canvas : List Rectangle) :
    Shows w.scale w.start.window (canvasAfter canvas w.start.effects) where
  sized := rfl
  pictured := by
    have asked : canvasAfter canvas w.start.effects =
        canvasAfter canvas (paint w.scale w.console.machine.display) :=
      canvasAfter_append canvas _ _
    rw [asked, canvasAfter_paint]
    rfl

/-- A frame that ends in the regular way is followed by its picture, if it handed one over. -/
theorem handle_tick_of_finished {shown : Bool} (isOpen : w.closing = false) (one : w.pending = 1)
    (done : (w.nextFrame s pace).ending = .finished shown) :
    w.handle s pace .tick =
      ⟨{ w with console := (w.nextFrame s pace).console, pending := 1 },
        (w.nextFrame s pace).effects ++
          (w.nextFrame s pace).picture?.toList.flatMap (paint w.scale) ++
          [.window (.after frameInterval)]⟩ := by
  have taken : w.console.frame s pace (!w.canvasLost) = w.nextFrame s pace := rfl
  rw [handle_tick isOpen one, runFrame]
  simp only [taken, done]

/-- An event that leaves a window open either asks for nothing to be drawn and keeps the display, or
it is a call whose frame ends in the regular way. -/
theorem Answer.still_or_finished {step : Step} (answer : Answer s pace w e step)
    (stays : step.window.closing = false) :
    (requests step.effects = [] ∧ step.window.scale = w.scale ∧
        step.window.console.machine.display = w.console.machine.display) ∨
      (e = .tick ∧ ∃ shown, (w.nextFrame s pace).ending = .finished shown) := by
  cases answer with
  | struck struck silent =>
    refine .inl ⟨silent, ?_, ?_⟩ <;> unfold strike <;> split <;> rfl
  | ignored => exact .inl ⟨rfl, rfl, rfl⟩
  | framed ending => exact .inr ⟨rfl, _, ending⟩
  | shut | failed | lost => cases stays

/-- **An event that leaves the window open leaves its display on the canvas.** -/
theorem Shows.handle (shows : Shows scale w canvas) (isOpen : w.closing = false)
    (one : w.pending = 1) (stays : (w.handle s pace e).window.closing = false) :
    Shows scale (w.handle s pace e).window (canvasAfter canvas (w.handle s pace e).effects) := by
  obtain ⟨sized, shown⟩ := shows
  obtain ⟨silent, same, display⟩ | ⟨rfl, _, done⟩ :=
    (answer_handle s pace isOpen one e).still_or_finished stays
  · refine ⟨same.trans sized, ?_⟩
    rw [canvasAfter_of_silent silent, display]
    exact shown
  · have silent : requests (w.nextFrame s pace).effects = [] := requests_frame s pace _ w.console
    have display : (w.nextFrame s pace).console.machine.display =
        (w.nextFrame s pace).picture?.getD w.console.machine.display :=
      Console.display_of_finished done
    rw [handle_tick_of_finished isOpen one done]
    refine ⟨sized, ?_⟩
    rw [canvasAfter_append, canvasAfter_append, canvasAfter_of_silent silent]
    show canvasAfter canvas _ = picture scale (w.nextFrame s pace).console.machine.display
    rw [display]
    cases (w.nextFrame s pace).picture? with
    | none => exact shown
    | some d =>
      rw [Option.toList_some, List.flatMap_singleton, sized]
      exact canvasAfter_paint scale d canvas

/-! ## Events one after another -/

/-- As long as a window stays open, the canvas shows its display. -/
theorem Shows.handleAll (shows : Shows scale w canvas) (one : w.OneCall)
    (stays : (w.afterAll s pace events).closing = false) :
    Shows scale (w.afterAll s pace events)
      (canvasAfter canvas (w.handleAll s pace events).effects) := by
  induction events generalizing w canvas with
  | nil => exact shows
  | cons e events ih =>
    have isOpen : w.closing = false := open_of_afterAll stays
    have first := shows.handle isOpen (one isOpen) (open_of_afterAll stays)
    have asked : canvasAfter canvas (w.handleAll s pace (e :: events)).effects =
        canvasAfter (canvasAfter canvas (w.handle s pace e).effects)
          ((w.handle s pace e).window.handleAll s pace events).effects :=
      canvasAfter_append canvas _ _
    rw [asked]
    exact ih first (oneCall_handle s pace one e).1 stays

/-- **The canvas always shows the display.** Take a window that was created and shown, and any
events after which it is open. On the canvas there is exactly one rectangle for each cell of the
display that is on, in reading order, and none for the others; the corners of the rectangle are those
of the cell, in units of the scale. So a display with every cell off leaves no rectangle, and an
event that leaves the window open and the display as it was leaves the canvas as it was. -/
theorem canvas_shows_display {title : String} {scale : Int} {library : Option Mixer} {c : Console}
    {first : Step} (made : create title scale library c = .ok first) (s : Setup) (pace : Pace)
    (events : List Event) :
    let shown := first.window.start
    let last := shown.window.handleAll s pace events
    let canvas := canvasAfter [] (first.effects ++ shown.effects ++ last.effects)
    let display := last.window.console.machine.display
    last.window.closing = false →
      canvas = display.lit.map (fun c : Cell =>
        ⟨c.col.toNat * scale, c.row.toNat * scale,
          (c.col.toNat + 1) * scale, (c.row.toNat + 1) * scale⟩) ∧
      (∀ c : Cell, c ∈ display.lit ↔ display[c] = true) ∧ display.lit.Pairwise Cell.Before ∧
      (display = .blank → canvas = []) ∧
      ∀ e, let next := last.window.handle s pace e
        next.window.closing = false → next.window.console.machine.display = display →
          canvasAfter canvas next.effects = canvas := by
  intro shown last canvas display isOpen
  obtain ⟨speaker, -, fresh⟩ := start_of_create made
  have one : shown.window.OneCall := fun _ => congrArg Window.pending fresh
  have sized : first.window.scale = scale := congrArg Window.scale fresh
  have shows : Shows scale last.window canvas := by
    have begins : Shows scale shown.window (canvasAfter [] (first.effects ++ shown.effects)) := by
      rw [canvasAfter_append, ← sized]
      exact shows_start first.window _
    have all : canvas = canvasAfter (canvasAfter [] (first.effects ++ shown.effects)) last.effects :=
      canvasAfter_append [] _ _
    rw [all]
    exact begins.handleAll one isOpen
  refine ⟨shows.pictured, fun _ => Display.mem_lit, Display.pairwise_lit display, ?_, ?_⟩
  · intro off
    calc canvas = picture scale display := shows.pictured
      _ = picture scale .blank := by rw [off]
      _ = [] := by rw [picture, Display.lit_blank, List.map_nil]
  · intro e next stays same
    have pending : last.window.pending = 1 := oneCall_afterAll s pace one events isOpen
    rw [(shows.handle isOpen pending stays).pictured, same, shows.pictured]

/-- A console whose machine draws the digit 1 and then goes in circles. -/
def painter : Console where
  machine := { Machine.empty with
    memory := (Machine.empty.memory.write 0 Machine.font).write Machine.programStart
      [0xA0, 0x05, 0xD0, 0x05, 0x12, 0x04] }
  speaker := .silent {}

/-- Two frames with a key in between. -/
def framesAndKey : List Event :=
  [.tick, .press "q", .tick]

theorem canvas_shows_display_painter :
    let shown := (silentWindow painter).start
    let last := shown.window.handleAll {} ⟨1, by decide⟩ framesAndKey
    let next := last.window.handle {} ⟨1, by decide⟩ .tick
    ∃ effects, create defaultTitle defaultScale none painter =
        .ok ⟨silentWindow painter, effects⟩ ∧
      let canvas := canvasAfter [] (effects ++ shown.effects ++ last.effects)
      last.window.closing = false ∧ ⟨20, 0, 30, 10⟩ ∈ canvas ∧ next.window.closing = false ∧
        next.window.console.machine.display = last.window.console.machine.display ∧
        canvasAfter canvas next.effects = canvas := by
  intro shown last next
  obtain ⟨effects, made⟩ := create_silentWindow painter
  have isOpen : last.window.closing = false := by decide +kernel
  have lit : last.window.console.machine.display[(⟨0, 2⟩ : Cell)] = true := by decide +kernel
  have stays : next.window.closing = false := by decide +kernel
  have same : next.window.console.machine.display = last.window.console.machine.display := by
    decide +kernel
  obtain ⟨canvas, listed, -, -, kept⟩ :=
    canvas_shows_display made {} ⟨1, by decide⟩ framesAndKey isOpen
  refine ⟨effects, made, isOpen, ?_, stays, same, kept .tick stays same⟩
  rw [canvas]
  exact List.mem_map.mpr ⟨⟨0, 2⟩, (listed _).mpr lit, rfl⟩

end Window

end Cosmac
