import Cosmac.Proofs.FrameSteps
import Cosmac.Window.Basic

/-!
# What a window makes of an event

The case distinctions that everything about windows is derived from. A window that is closing
answers nothing: it lets calls that are still owed to it pass and does nothing else
(`handle_of_closing`). An open window that has asked for one call does one of six things, each a
case of `Answer`; `answer_handle` says that there are no others.

Three of these close it. The user or a fault shuts it (`Shuts`), which turns the tone off and takes
leave of the window system; or a frame finds that the canvas is gone (`Loses`), and then the window
only stops answering. `Answer.outcome` says which of them happened and what was asked for.

`afterAll` is the window after a number of events, and `Meets` says that one of the events finds the
window in some state.
-/

namespace Cosmac.Window

variable {s : Setup} {pace : Pace} {w : Window} {e : Event} {events : List Event}

/-! ## Events -/

/-- The key of the pad that an event strikes, and whether it goes down. -/
def Event.stroke? : Event → Option (Nibble × Bool)
  | .press symbol => (Keyboard.key? (Keyboard.plain symbol)).map fun k => (k, true)
  | .release symbol => (Keyboard.key? (Keyboard.plain symbol)).map fun k => (k, false)
  | _ => none

/-- The user closes the window or strikes the escape key. -/
def Event.asksToClose : Event → Bool
  | .press symbol => Keyboard.plain symbol == Keyboard.escape
  | .close => true
  | _ => false

/-- A stroke of a key of the pad is neither a call nor asks to close. -/
theorem Event.of_stroke {stroke : Nibble × Bool} (struck : e.stroke? = some stroke) :
    e.asksToClose = false ∧ e ≠ .tick := by
  cases e with
  | press symbol =>
    refine ⟨?_, nofun⟩
    rw [asksToClose, beq_eq_false_iff_ne]
    intro escape
    rw [stroke?, escape] at struck
    cases struck
  | release => exact ⟨rfl, nofun⟩
  | _ => cases struck

/-- Who asks to close strikes no key of the pad and is no call. -/
theorem Event.of_asksToClose (asks : e.asksToClose = true) : e.stroke? = none ∧ e ≠ .tick := by
  constructor
  · cases struck : e.stroke? with
    | none => rfl
    | some stroke =>
      rw [(of_stroke struck).1] at asks
      cases asks
  · rintro rfl
    cases asks

/-! ## Requests -/

/-- What is asked of the window system. -/
def requests (effects : List Effect) : List Request :=
  effects.filterMap Effect.window?

/-- A request takes leave of the window system. -/
def Request.isFarewell : Request → Bool
  | .quit => true
  | .destroy => true
  | _ => false

/-- A request asks for a call. -/
def Request.asksForCall : Request → Bool
  | .after _ => true
  | _ => false

/-- The requests that take leave of the window system. -/
def farewells (effects : List Effect) : List Request :=
  (requests effects).filter Request.isFarewell

/-- How many calls are asked for. -/
def callsAsked (effects : List Effect) : Nat :=
  (requests effects).countP Request.asksForCall

@[simp] theorem requests_append (first last : List Effect) :
    requests (first ++ last) = requests first ++ requests last :=
  List.filterMap_append

@[simp] theorem farewells_append (first last : List Effect) :
    farewells (first ++ last) = farewells first ++ farewells last := by
  simp [farewells]

@[simp] theorem callsAsked_append (first last : List Effect) :
    callsAsked (first ++ last) = callsAsked first + callsAsked last := by
  simp [callsAsked]

/-- What a machine reports asks the window system for nothing. -/
theorem requests_ofMachine (notices : List Machine.Notice) :
    requests (notices.map Effect.ofMachine) = [] := by
  simp [requests, Effect.ofMachine, Effect.window?]

/-- What a speaker does asks the window system for nothing. -/
theorem requests_ofAction (actions : List Speaker.Action) :
    requests (actions.map Effect.ofAction) = [] := by
  rw [requests, List.filterMap_map, List.filterMap_eq_nil_iff]
  intro action _
  cases action <;> rfl

/-- A frame asks the window system for nothing; what is asked after it is the window's doing. -/
theorem requests_frame (s : Setup) (pace : Pace) (accepts : Bool) (c : Console) :
    requests (c.frame s pace accepts).effects = [] := by
  have run : requests (c.framed s pace).effects = [] := requests_ofMachine _
  have done : requests (c.frameEffects (c.framed s pace)) = [] := by
    rw [Console.frameEffects, requests_append, run, requests_ofAction]
    rfl
  obtain ⟨f, -, same⟩ | ⟨-, -, same⟩ | ⟨-, -, -, same⟩ | ⟨-, -, -, same⟩ :=
    Console.frame_cases s pace accepts c
  · rw [same]
    exact run
  all_goals
    rw [same]
    exact done

/-- To paint asks neither to leave nor for a call. -/
theorem requests_of_paint (scale : Int) (picture? : Option Display) :
    farewells (picture?.toList.flatMap (paint scale)) = [] ∧
      callsAsked (picture?.toList.flatMap (paint scale)) = 0 := by
  have painted : ∀ r ∈ requests (picture?.toList.flatMap (paint scale)),
      r = .clear ∨ ∃ c, r = square scale c := by
    intro r asked
    simp only [requests, paint, List.mem_filterMap, List.mem_flatMap, List.mem_cons,
      List.mem_map] at asked
    obtain ⟨effect, ⟨d, -, rfl | ⟨c, -, rfl⟩⟩, same⟩ := asked
    · cases same
      exact .inl rfl
    · cases same
      exact .inr ⟨c, rfl⟩
  constructor
  · rw [farewells, List.filter_eq_nil_iff]
    intro r asked
    obtain rfl | ⟨c, rfl⟩ := painted r asked <;> simp [Request.isFarewell, square]
  · rw [callsAsked, List.countP_eq_zero]
    intro r asked
    obtain rfl | ⟨c, rfl⟩ := painted r asked <;> simp [Request.asksForCall, square]

/-! ## One event -/

/-- The frame that the next call runs. -/
def nextFrame (s : Setup) (pace : Pace) (w : Window) : Console.FrameResult :=
  w.console.frame s pace (!w.canvasLost)

/-- The window after a key of the pad was struck, which is nothing if the key stays as it is. -/
def strike (w : Window) (k : Nibble) (down : Bool) : Window :=
  if w.held[k] = down then w
  else
    { w with
      held := w.held.set k down
      console := { w.console with machine := w.console.machine.setKey k down } }

/-- The canvas is gone after an event. -/
def canvasGone (w : Window) (e : Event) : Bool :=
  w.canvasLost || decide (e = .loseCanvas)

/-- Only its loss takes the canvas away. -/
theorem canvasGone_of_ne (kept : e ≠ .loseCanvas) : w.canvasGone e = w.canvasLost := by
  rw [canvasGone, decide_eq_false kept, Bool.or_false]

/-- The console with its tone off. -/
def quiet (c : Console) : Console :=
  { c with speaker := c.speaker.stop.1 }

/-- **What an open window makes of an event.** -/
inductive Answer (s : Setup) (pace : Pace) (w : Window) : Event → Step → Prop where
  /-- A key of the pad is struck. -/
  | struck {e : Event} {k : Nibble} {down : Bool} {effects : List Effect} :
      e.stroke? = some (k, down) → requests effects = [] →
      Answer s pace w e ⟨w.strike k down, effects⟩
  /-- The event means nothing, or nothing before the next frame. -/
  | ignored {e : Event} : e.stroke? = none → e.asksToClose = false → e ≠ .tick →
      Answer s pace w e ⟨{ w with canvasLost := w.canvasGone e }, []⟩
  | shut {e : Event} {effects : List Effect} :
      e.asksToClose = true → requests effects = [.quit, .destroy] →
      Answer s pace w e ⟨{ w with console := quiet w.console, closing := true }, effects⟩
  | framed {shown : Bool} {effects : List Effect} :
      (w.nextFrame s pace).ending = .finished shown →
      farewells effects = [] → callsAsked effects = 1 →
      Answer s pace w .tick
        ⟨{ w with console := (w.nextFrame s pace).console, pending := 1 }, effects⟩
  | failed {f : Fault} {effects : List Effect} :
      (w.nextFrame s pace).ending = .fault f → requests effects = [.quit, .destroy] →
      Answer s pace w .tick
        ⟨{ w with
            console := quiet (w.nextFrame s pace).console
            pending := 0
            closing := true
            fault? := some f }, effects⟩
  | lost {effects : List Effect} :
      (w.nextFrame s pace).ending = .refused → requests effects = [] →
      Answer s pace w .tick
        ⟨{ w with
            console := (w.nextFrame s pace).console
            pending := 0
            closing := true
            canvasLost := false }, effects⟩

/-- Shutting an open window stops the tone and takes leave: quit, then destroy. -/
theorem shut_of_open (isOpen : w.closing = false) :
    ∃ effects, requests effects = [.quit, .destroy] ∧
      w.shut = ⟨{ w with console := quiet w.console, closing := true }, effects⟩ := by
  refine ⟨w.console.speaker.stop.2.map Effect.ofAction ++ [.window .quit, .window .destroy],
    ?_, ?_⟩
  · rw [requests_append, requests_ofAction]
    rfl
  · rw [Window.shut, if_neg (by simp [isOpen])]
    rfl

/-- A call that an open window has asked for runs a frame. -/
theorem handle_tick (isOpen : w.closing = false) (one : w.pending = 1) :
    w.handle s pace .tick = ({ w with pending := 0 } : Window).runFrame s pace := by
  simp only [handle, one, isOpen]
  rfl

/-- The frame of a call is finished, fails or is refused. -/
theorem answer_tick (isOpen : w.closing = false) (one : w.pending = 1) :
    Answer s pace w .tick (w.handle s pace .tick) := by
  have silent : requests (w.nextFrame s pace).effects = [] := requests_frame s pace _ w.console
  have taken : w.console.frame s pace (!w.canvasLost) = w.nextFrame s pace := rfl
  rw [handle_tick isOpen one, runFrame]
  simp only [taken]
  cases ending : (w.nextFrame s pace).ending with
  | finished shown =>
    obtain ⟨stays, idle⟩ := requests_of_paint w.scale (w.nextFrame s pace).picture?
    refine .framed ending ?_ ?_
    · rw [farewells_append, farewells_append, stays, farewells, silent]
      rfl
    · rw [callsAsked_append, callsAsked_append, idle, callsAsked, silent]
      rfl
  | fault f =>
    obtain ⟨effects, asked, same⟩ := shut_of_open
      (w := { w with console := (w.nextFrame s pace).console, pending := 0, fault? := some f })
      isOpen
    simp only [same]
    refine .failed ending ?_
    rw [requests_append, silent]
    exact asked
  | refused => exact .lost ending silent

/-- Pressing a key of the pad strikes it down and asks the window system for nothing. -/
theorem pressKey_eq_strike (w : Window) (symbol : String) (k : Nibble) :
    ∃ effects, requests effects = [] ∧ w.pressKey symbol k = ⟨w.strike k true, effects⟩ := by
  unfold pressKey strike
  by_cases down : w.held[k] = true
  · rw [if_pos down, if_pos down]
    exact ⟨[], rfl, rfl⟩
  · rw [if_neg down, if_neg down]
    exact ⟨_, rfl, rfl⟩

/-- Releasing a key of the pad strikes it up. -/
theorem releaseKey_eq_strike (w : Window) (k : Nibble) :
    w.releaseKey k = ⟨w.strike k false, []⟩ := by
  unfold releaseKey strike
  by_cases down : w.held[k] = true
  · rw [if_pos down, if_neg (by simp [down])]
  · rw [if_neg down, if_pos (Bool.eq_false_iff.mpr down)]

/-- An event that strikes no key, asks for nothing and leaves the canvas changes nothing. -/
theorem answer_ignored (unstruck : e.stroke? = none) (stays : e.asksToClose = false)
    (idle : e ≠ .tick) (canvas : e ≠ .loseCanvas) : Answer s pace w e ⟨w, []⟩ := by
  have same : Answer s pace w e ⟨{ w with canvasLost := w.canvasGone e }, []⟩ :=
    .ignored unstruck stays idle
  rw [canvasGone_of_ne canvas] at same
  exact same

/-- **An open window that has asked for one call does nothing else.** -/
theorem answer_handle (s : Setup) (pace : Pace) (isOpen : w.closing = false) (one : w.pending = 1)
    (e : Event) : Answer s pace w e (w.handle s pace e) := by
  cases e with
  | tick => exact answer_tick isOpen one
  | press symbol =>
    simp only [handle, isOpen, Bool.false_eq_true, if_false]
    cases key : Keyboard.key? (Keyboard.plain symbol) with
    | some k =>
      obtain ⟨effects, silent, same⟩ := pressKey_eq_strike w (Keyboard.plain symbol) k
      simp only [same]
      exact .struck (by rw [Event.stroke?, key]; rfl) silent
    | none =>
      by_cases escape : Keyboard.plain symbol = Keyboard.escape
      · obtain ⟨effects, asked, same⟩ := shut_of_open isOpen
        simp only [escape, if_true, same]
        exact .shut (beq_iff_eq.mpr escape) asked
      · simp only [escape, if_false]
        exact answer_ignored (by rw [Event.stroke?, key]; rfl) (beq_eq_false_iff_ne.mpr escape)
          nofun nofun
  | release symbol =>
    simp only [handle, isOpen, Bool.false_eq_true, if_false]
    cases key : Keyboard.key? (Keyboard.plain symbol) with
    | some k =>
      simp only [releaseKey_eq_strike]
      exact .struck (by rw [Event.stroke?, key]; rfl) rfl
    | none => exact answer_ignored (by rw [Event.stroke?, key]; rfl) rfl nofun nofun
  | close =>
    obtain ⟨effects, asked, same⟩ := shut_of_open isOpen
    rw [handle, same]
    exact .shut rfl asked
  | loseCanvas =>
    have gone : w.canvasGone .loseCanvas = true := Bool.or_true _
    have same : Answer s pace w .loseCanvas ⟨{ w with canvasLost := w.canvasGone .loseCanvas }, []⟩ :=
      .ignored rfl rfl nofun
    rw [gone] at same
    exact same

/-! ## How an event closes a window -/

/-- The event closes the window in the regular way: the user asks for it, or a frame fails. -/
def Shuts (s : Setup) (pace : Pace) (w : Window) (e : Event) : Prop :=
  w.closing = false ∧
    (e.asksToClose = true ∨ e = .tick ∧ ∃ f, (w.nextFrame s pace).ending = .fault f)

/-- The event is a call whose frame finds that the canvas is gone. -/
def Loses (s : Setup) (pace : Pace) (w : Window) (e : Event) : Prop :=
  w.closing = false ∧ e = .tick ∧ (w.nextFrame s pace).ending = .refused

/-- A frame is only refused where the canvas is gone. -/
theorem Loses.canvasLost (loses : w.Loses s pace e) : w.canvasLost = true := by
  obtain ⟨-, -, refused⟩ := loses
  obtain ⟨f, -, same⟩ | ⟨-, -, same⟩ | ⟨-, -, gone, -⟩ | ⟨-, -, -, same⟩ :=
    Console.frame_cases s pace (!w.canvasLost) w.console
  · rw [nextFrame, same] at refused
    cases refused
  · rw [nextFrame, same] at refused
    cases refused
  · simpa using gone
  · rw [nextFrame, same] at refused
    cases refused

@[simp] theorem closing_strike (w : Window) (k : Nibble) (down : Bool) :
    (w.strike k down).closing = w.closing := by
  unfold strike
  split <;> rfl

@[simp] theorem canvasLost_strike (w : Window) (k : Nibble) (down : Bool) :
    (w.strike k down).canvasLost = w.canvasLost := by
  unfold strike
  split <;> rfl

@[simp] theorem pending_strike (w : Window) (k : Nibble) (down : Bool) :
    (w.strike k down).pending = w.pending := by
  unfold strike
  split <;> rfl

/-- How a window can stand after something that may have shut it or lost it, and which leave it has
taken of the window system. -/
inductive Outcome (shuts loses : Prop) (step : Step) : Prop where
  | stays : step.window.closing = false → ¬ shuts → ¬ loses → farewells step.effects = [] →
      Outcome shuts loses step
  | shut : step.window.closing = true → shuts → ¬ loses →
      farewells step.effects = [.quit, .destroy] → Outcome shuts loses step
  | lost : step.window.closing = true → ¬ shuts → loses → farewells step.effects = [] →
      Outcome shuts loses step

/-- What neither asks to close nor is a call does not shut the window. -/
theorem not_shuts_of_idle (stays : e.asksToClose = false) (idle : e ≠ .tick) :
    ¬ w.Shuts s pace e := by
  rintro ⟨-, asks | ⟨tick, -⟩⟩
  · rw [stays] at asks
    cases asks
  · exact idle tick

/-- A call whose frame does not fail does not shut the window. -/
theorem not_shuts_tick (fine : ∀ f, (w.nextFrame s pace).ending ≠ .fault f) :
    ¬ w.Shuts s pace .tick := by
  rintro ⟨-, asks | ⟨-, f, failed⟩⟩
  · cases asks
  · exact fine f failed

/-- A call whose frame is not refused does not lose the window. -/
theorem not_loses_tick (accepted : (w.nextFrame s pace).ending ≠ .refused) :
    ¬ w.Loses s pace .tick :=
  fun loses => accepted loses.2.2

/-- **An open window stays open, is shut or is lost**, and takes leave only when it is shut. -/
theorem Answer.outcome {step : Step} (isOpen : w.closing = false)
    (answer : Answer s pace w e step) :
    Outcome (w.Shuts s pace e) (w.Loses s pace e) step := by
  cases answer with
  | struck struck silent =>
    obtain ⟨stays, idle⟩ := Event.of_stroke struck
    refine .stays ((closing_strike w _ _).trans isOpen) (not_shuts_of_idle stays idle)
      (fun loses => idle loses.2.1) ?_
    rw [farewells, silent]
    rfl
  | ignored unstruck stays idle =>
    exact .stays isOpen (not_shuts_of_idle stays idle) (fun loses => idle loses.2.1) rfl
  | shut asks asked =>
    have idle : e ≠ .tick := (Event.of_asksToClose asks).2
    refine .shut rfl ⟨isOpen, .inl asks⟩ (fun loses => idle loses.2.1) ?_
    rw [farewells, asked]
    rfl
  | framed ending stays called =>
    refine .stays isOpen (not_shuts_tick ?_) (not_loses_tick ?_) stays
    · simp [ending]
    · simp [ending]
  | failed ending asked =>
    refine .shut rfl ⟨isOpen, .inr ⟨rfl, _, ending⟩⟩ (not_loses_tick ?_) ?_
    · simp [ending]
    · rw [farewells, asked]
      rfl
  | lost ending silent =>
    refine .lost rfl (not_shuts_tick ?_) ⟨isOpen, rfl, ending⟩ ?_
    · simp [ending]
    · rw [farewells, silent]
      rfl

/-! ## Calls -/

/-- How many calls an event makes: a tick makes the oldest one that was asked for, if any. -/
def callsMade (w : Window) (e : Event) : Nat :=
  if e = .tick ∧ 0 < w.pending then 1 else 0

/-- **A window that is closing does nothing** but let a call pass. -/
theorem handle_of_closing (s : Setup) (pace : Pace) (closing : w.closing = true) (e : Event) :
    w.handle s pace e =
      ⟨{ w with pending := w.pending - w.callsMade e, canvasLost := w.canvasGone e }, []⟩ := by
  have still (kept : e ≠ .loseCanvas) (idle : e ≠ .tick) : (⟨w, []⟩ : Step) =
      ⟨{ w with pending := w.pending - w.callsMade e, canvasLost := w.canvasGone e }, []⟩ := by
    rw [canvasGone_of_ne kept, callsMade, if_neg fun tick => idle tick.1]
    rfl
  cases e with
  | tick =>
    have kept : w.canvasGone .tick = w.canvasLost := canvasGone_of_ne nofun
    rw [kept]
    simp only [handle]
    split
    next idle =>
      rw [callsMade, if_neg (by simp [idle])]
      rfl
    next n owed =>
      have one : w.callsMade .tick = 1 := by simp [callsMade, owed]
      rw [if_pos closing, one, owed]
      rfl
  | press symbol => exact (if_pos closing).trans (still nofun nofun)
  | release symbol => exact (if_pos closing).trans (still nofun nofun)
  | close => exact (if_pos closing).trans (still nofun nofun)
  | loseCanvas =>
    have gone : w.canvasGone .loseCanvas = true := Bool.or_true _
    rw [gone]
    rfl

/-- As long as the window is open, one call is asked for. -/
def OneCall (w : Window) : Prop :=
  w.closing = false → w.pending = 1

/-- **An open window asks for a call whenever it has answered one.** -/
theorem Answer.oneCall {step : Step} (one : w.pending = 1) (answer : Answer s pace w e step) :
    step.window.OneCall ∧
      callsAsked step.effects + w.pending = w.callsMade e + step.window.pending := by
  unfold callsMade OneCall
  rw [one]
  cases answer with
  | struck struck silent =>
    have idle : e ≠ .tick := (Event.of_stroke struck).2
    rw [callsAsked, silent, if_neg fun tick => idle tick.1, pending_strike, one]
    exact ⟨fun _ => rfl, rfl⟩
  | ignored unstruck stays idle =>
    rw [if_neg fun tick => idle tick.1]
    exact ⟨fun _ => one, by rw [one]; rfl⟩
  | shut asks asked =>
    have idle : e ≠ .tick := (Event.of_asksToClose asks).2
    rw [callsAsked, asked, if_neg fun tick => idle tick.1]
    exact ⟨nofun, by rw [one]; rfl⟩
  | framed ending stays called =>
    rw [called, if_pos ⟨rfl, Nat.one_pos⟩]
    exact ⟨fun _ => rfl, rfl⟩
  | failed ending asked =>
    rw [callsAsked, asked, if_pos ⟨rfl, Nat.one_pos⟩]
    exact ⟨nofun, rfl⟩
  | lost ending silent =>
    rw [callsAsked, silent, if_pos ⟨rfl, Nat.one_pos⟩]
    exact ⟨nofun, rfl⟩

/-- Calls that were asked for have been made or are still to be made. -/
theorem oneCall_handle (s : Setup) (pace : Pace) (one : w.OneCall) (e : Event) :
    let step := w.handle s pace e
    step.window.OneCall ∧
      callsAsked step.effects + w.pending = w.callsMade e + step.window.pending := by
  cases closing : w.closing with
  | false => exact (answer_handle s pace closing (one closing) e).oneCall (one closing)
  | true =>
    have few : w.callsMade e ≤ w.pending := by
      unfold callsMade
      split <;> omega
    rw [handle_of_closing s pace closing e]
    refine ⟨fun isOpen => ?_, ?_⟩
    · rw [closing] at isOpen
      cases isOpen
    · show 0 + w.pending = w.callsMade e + (w.pending - w.callsMade e)
      omega

/-- A canvas that is there stays until its loss. -/
theorem Answer.canvasLost {step : Step} (answer : Answer s pace w e step) (kept : e ≠ .loseCanvas)
    (there : w.canvasLost = false) : step.window.canvasLost = false := by
  cases answer with
  | struck => exact (canvasLost_strike w _ _).trans there
  | ignored => exact (canvasGone_of_ne kept).trans there
  | shut => exact there
  | framed => exact there
  | failed => exact there
  | lost => rfl

/-- The canvas is lost by no other event. -/
theorem canvasLost_handle (s : Setup) (pace : Pace) (one : w.OneCall) (kept : e ≠ .loseCanvas)
    (there : w.canvasLost = false) : (w.handle s pace e).window.canvasLost = false := by
  cases closing : w.closing with
  | true =>
    rw [handle_of_closing s pace closing e]
    exact (canvasGone_of_ne kept).trans there
  | false => exact (answer_handle s pace closing (one closing) e).canvasLost kept there

/-! ## Events one after another -/

/-- The window after a number of events. -/
def afterAll (s : Setup) (pace : Pace) (w : Window) (events : List Event) : Window :=
  (w.handleAll s pace events).window

/-- An open window has asked for exactly one call, whatever it has been through. -/
theorem oneCall_afterAll (s : Setup) (pace : Pace) (one : w.OneCall) (events : List Event) :
    (w.afterAll s pace events).OneCall := by
  induction events generalizing w with
  | nil => exact one
  | cons e events ih => exact ih (oneCall_handle s pace one e).1

/-- **Closing is final.** -/
theorem handleAll_of_closing (s : Setup) (pace : Pace) (closing : w.closing = true)
    (events : List Event) :
    ∃ pending ≤ w.pending, ∃ canvasLost,
      w.handleAll s pace events = ⟨{ w with pending, canvasLost }, []⟩ := by
  induction events generalizing w with
  | nil => exact ⟨w.pending, Nat.le_refl _, w.canvasLost, rfl⟩
  | cons e events ih =>
    obtain ⟨pending, fewer, canvasLost, rest⟩ :=
      ih (w := { w with pending := w.pending - w.callsMade e, canvasLost := w.canvasGone e }) closing
    refine ⟨pending, Nat.le_trans fewer (Nat.sub_le _ _), canvasLost, ?_⟩
    simp only [handleAll, handle_of_closing s pace closing e, rest]
    rfl

/-- What is open at the end was open from the beginning. -/
theorem open_of_afterAll (isOpen : (w.afterAll s pace events).closing = false) :
    w.closing = false := by
  cases closing : w.closing with
  | false => rfl
  | true =>
    obtain ⟨pending, -, canvasLost, final⟩ := handleAll_of_closing s pace closing events
    rw [afterAll, final, closing] at isOpen
    cases isOpen

/-- One of the events finds the window in a state in which `P` holds of the two. -/
def Meets (s : Setup) (pace : Pace) (P : Window → Event → Prop) (w : Window)
    (events : List Event) : Prop :=
  ∃ before e rest, events = before ++ e :: rest ∧ P (w.afterAll s pace before) e

variable {P : Window → Event → Prop}

/-- Without events nothing is met. -/
theorem not_meets_nil : ¬ w.Meets s pace P [] := by
  rintro ⟨before, e, rest, same, -⟩
  cases before <;> cases same

/-- What is met is met by the first event or after it. -/
theorem meets_cons :
    w.Meets s pace P (e :: events) ↔
      P w e ∨ (w.handle s pace e).window.Meets s pace P events := by
  constructor
  · rintro ⟨before, e', rest, same, holds⟩
    cases before with
    | nil =>
      cases same
      exact .inl holds
    | cons _ before =>
      cases same
      exact .inr ⟨before, e', rest, rfl, holds⟩
  · rintro (holds | ⟨before, e', rest, rfl, holds⟩)
    · exact ⟨[], e, events, rfl, holds⟩
    · exact ⟨e :: before, e', rest, rfl, holds⟩

/-- Whatever is met is also met under a weaker description. -/
theorem Meets.imp {Q : Window → Event → Prop} (implies : ∀ w e, P w e → Q w e)
    (meets : w.Meets s pace P events) : w.Meets s pace Q events := by
  obtain ⟨before, e, rest, same, holds⟩ := meets
  exact ⟨before, e, rest, same, implies _ _ holds⟩

/-- A window that is closing meets nothing that needs an open one. -/
theorem not_meets_of_closing (needs : ∀ w e, P w e → w.closing = false)
    (closing : w.closing = true) (events : List Event) : ¬ w.Meets s pace P events := by
  rintro ⟨before, e, rest, -, holds⟩
  have isOpen : w.closing = false := open_of_afterAll (needs _ _ holds)
  rw [closing] at isOpen
  cases isOpen

/-! ## A window that was just opened -/

/-- **What a window is like when it was created and shown.** No key is held, the tone is off, and
one call is asked for. -/
theorem start_of_create {title : String} {scale : Int} {library : Option Mixer} {c : Console}
    {first : Step} (made : create title scale library c = .ok first) :
    ∃ speaker, speaker.playing = false ∧
      first.window.start.window = { console := { c with speaker }, scale, pending := 1 } := by
  simp only [create] at made
  cases chosen : (Speaker.choose Speaker.defaultPitch library).result with
  | error e =>
    rw [chosen] at made
    cases made
  | ok speaker =>
    rw [chosen] at made
    cases made
    exact ⟨speaker, Speaker.playing_of_choose chosen, rfl⟩

/-- Where there is no sound library, a window is created with a silent speaker. -/
def silentWindow (c : Console) : Window where
  console := { c with speaker := .silent {} }
  scale := defaultScale

theorem create_silentWindow (c : Console) :
    ∃ effects, create defaultTitle defaultScale none c = .ok ⟨silentWindow c, effects⟩ :=
  ⟨_, rfl⟩

end Cosmac.Window
