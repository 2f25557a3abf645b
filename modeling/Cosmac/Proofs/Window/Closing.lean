import Cosmac.Proofs.Window.Handling

/-!
# An orderly end

A window that is open has exactly one call to wait for: it asks for the first when it is shown, and
each call that it answers asks for the next one. So frames follow one another in a single chain,
which ends with the window. Once it is closing, nothing that the window system reports does anything
any more, the call that may still be owed included.

A window takes leave of the window system once, first by `quit` and then by `destroy`, and it does
so exactly if it was shut. A window that has lost its canvas takes no leave.
-/

namespace Cosmac.Window

variable {s : Setup} {pace : Pace} {w : Window}

/-- How many calls a number of events make. -/
def callsMadeBy (s : Setup) (pace : Pace) (w : Window) : List Event → Nat
  | [] => 0
  | e :: events => w.callsMade e + (w.handle s pace e).window.callsMadeBy s pace events

/-- The calls that are asked for, with those asked for before, are made or still to come. -/
theorem calls_handleAll (s : Setup) (pace : Pace) (one : w.OneCall) (events : List Event) :
    let last := w.handleAll s pace events
    callsAsked last.effects + w.pending =
      w.callsMadeBy s pace events + last.window.pending := by
  induction events generalizing w with
  | nil => rfl
  | cons e events ih =>
    obtain ⟨still, first⟩ := oneCall_handle s pace one e
    have rest := ih still
    simp only [handleAll, callsMadeBy, callsAsked_append] at rest ⊢
    omega

/-- What was shut or lost stays so: what comes after it adds nothing. -/
theorem Outcome.append {first last : Step} {shuts loses shuts' loses' : Prop}
    (begins : Outcome shuts loses first)
    (goesOn : first.window.closing = false → Outcome shuts' loses' last)
    (ends : first.window.closing = true →
      last.window.closing = true ∧ last.effects = [] ∧ ¬ shuts' ∧ ¬ loses') :
    Outcome (shuts ∨ shuts') (loses ∨ loses') ⟨last.window, first.effects ++ last.effects⟩ := by
  cases begins with
  | stays isOpen unshut unlost none =>
    have farewell : farewells (first.effects ++ last.effects) = farewells last.effects := by
      rw [farewells_append, none, List.nil_append]
    cases goesOn isOpen with
    | stays stillOpen unshut' unlost' none' =>
      exact .stays stillOpen (not_or.mpr ⟨unshut, unshut'⟩) (not_or.mpr ⟨unlost, unlost'⟩)
        (farewell.trans none')
    | shut closing shut' unlost' leave =>
      exact .shut closing (.inr shut') (not_or.mpr ⟨unlost, unlost'⟩) (farewell.trans leave)
    | lost closing unshut' lost' none' =>
      exact .lost closing (not_or.mpr ⟨unshut, unshut'⟩) (.inr lost') (farewell.trans none')
  | shut closing shut unlost leave =>
    obtain ⟨still, silent, -, unlost'⟩ := ends closing
    refine .shut still (.inl shut) (not_or.mpr ⟨unlost, unlost'⟩) ?_
    rw [silent, List.append_nil, leave]
  | lost closing unshut lost none =>
    obtain ⟨still, silent, unshut', -⟩ := ends closing
    refine .lost still (not_or.mpr ⟨unshut, unshut'⟩) (.inl lost) ?_
    rw [silent, List.append_nil, none]

/-- **Events leave an open window open, shut it or lose it**, once and for all. -/
theorem outcome_handleAll (s : Setup) (pace : Pace) (isOpen : w.closing = false)
    (one : w.OneCall) (events : List Event) :
    Outcome (w.Meets s pace (Shuts s pace) events) (w.Meets s pace (Loses s pace) events)
      (w.handleAll s pace events) := by
  induction events generalizing w with
  | nil => exact .stays isOpen not_meets_nil not_meets_nil rfl
  | cons e events ih =>
    rw [meets_cons, meets_cons]
    have begins := (answer_handle s pace isOpen (one isOpen) e).outcome isOpen
    refine begins.append (fun stillOpen => ih stillOpen (oneCall_handle s pace one e).1) ?_
    intro closing
    obtain ⟨pending, -, canvasLost, same⟩ := handleAll_of_closing s pace closing events
    refine ⟨?_, ?_, not_meets_of_closing (fun _ _ shuts => shuts.1) closing events,
      not_meets_of_closing (fun _ _ loses => loses.1) closing events⟩
    · rw [same]
      exact closing
    · rw [same]

/-- Leave is taken in one piece, and exactly by what was shut. -/
theorem Outcome.leave {step : Step} {shuts loses : Prop} (outcome : Outcome shuts loses step) :
    (farewells step.effects = [] ∨ farewells step.effects = [.quit, .destroy]) ∧
      (farewells step.effects = [.quit, .destroy] ↔ shuts) ∧
      (step.window.closing = true ↔ shuts ∨ loses) ∧ ¬ (shuts ∧ loses) := by
  cases outcome with
  | stays isOpen unshut unlost none =>
    rw [none, isOpen]
    simp [unshut, unlost]
  | shut closing shut unlost leave =>
    rw [leave, closing]
    simp [shut, unlost]
  | lost closing unshut lost none =>
    rw [none, closing]
    simp [unshut, lost]

/-- A window that starts asks for one call and takes no leave. -/
theorem requests_start (w : Window) :
    farewells w.start.effects = [] ∧ callsAsked w.start.effects = 1 := by
  obtain ⟨stays, idle⟩ := requests_of_paint w.scale (some w.console.machine.display)
  rw [Option.toList_some, List.flatMap_singleton] at stays idle
  constructor
  · rw [start, farewells_append, stays]
    rfl
  · rw [start, callsAsked_append, idle]
    rfl

/-- **Closing is final, and calls never fork.** Take a window that was created and shown, and any
events. As long as it is open, exactly one call is asked for and not yet made. Once it is closing,
later events do nothing: they have no effect on the world and leave the console, the held keys and
the fault as they are, and no call is asked for again. The window takes leave of the window system
at most once, by `quit` and then `destroy`, and it does so exactly if one of the events shut it. A
window is closing exactly if one event shut it or lost it, and not both of these happen. -/
theorem closing_is_final {title : String} {scale : Int} {library : Option Mixer} {c : Console}
    {first : Step} (made : create title scale library c = .ok first) (s : Setup) (pace : Pace)
    (events : List Event) :
    let shown := first.window.start
    let last := shown.window.handleAll s pace events
    let effects := shown.effects ++ last.effects
    let shut := shown.window.Meets s pace (Shuts s pace) events
    let lost := shown.window.Meets s pace (Loses s pace) events
    (last.window.closing = false → last.window.pending = 1) ∧
      callsAsked effects = shown.window.callsMadeBy s pace events + last.window.pending ∧
      (last.window.closing = true → ∀ later : List Event,
        ∃ pending ≤ last.window.pending, ∃ canvasLost,
          last.window.handleAll s pace later = ⟨{ last.window with pending, canvasLost }, []⟩) ∧
      (farewells effects = [] ∨ farewells effects = [.quit, .destroy]) ∧
      (farewells effects = [.quit, .destroy] ↔ shut) ∧
      (last.window.closing = true ↔ shut ∨ lost) ∧ ¬ (shut ∧ lost) := by
  intro shown last effects shut lost
  obtain ⟨speaker, -, fresh⟩ := start_of_create made
  have isOpen : shown.window.closing = false := congrArg Window.closing fresh
  have pending : shown.window.pending = 1 := congrArg Window.pending fresh
  have one : shown.window.OneCall := fun _ => pending
  obtain ⟨silent, asked⟩ := requests_start first.window
  have calls : callsAsked effects =
      shown.window.callsMadeBy s pace events + last.window.pending := by
    have counted : callsAsked last.effects + shown.window.pending = _ :=
      calls_handleAll s pace one events
    rw [callsAsked_append, asked, ← counted, pending, Nat.add_comm]
  have farewell : farewells effects = farewells last.effects := by
    rw [farewells_append, silent, List.nil_append]
  refine ⟨oneCall_afterAll s pace one events, calls,
    fun closing later => handleAll_of_closing s pace closing later, ?_⟩
  rw [farewell]
  exact (outcome_handleAll s pace isOpen one events).leave

/-- A console whose machine jumps from one address to another and back. -/
def spinner : Console where
  machine := { Machine.empty with memory := .fill 0x12 }
  speaker := .silent {}

/-- A frame, the escape key in capital letters, and the call that is still owed. -/
def frameThenEscape : List Event :=
  [.tick, .press "Escape", .tick]

theorem closing_is_final_escape :
    let shown := (silentWindow spinner).start
    let last := shown.window.handleAll {} ⟨1, by decide⟩ frameThenEscape
    (∃ effects, create defaultTitle defaultScale none spinner =
        .ok ⟨silentWindow spinner, effects⟩) ∧
      farewells (shown.effects ++ last.effects) = [.quit, .destroy] ∧
      shown.window.Meets {} ⟨1, by decide⟩ (Shuts {} ⟨1, by decide⟩) frameThenEscape ∧
      last.window.closing = true ∧
      (last.window.handleAll {} ⟨1, by decide⟩ [.press "q", .tick, .close]).effects = [] := by
  intro shown last
  obtain ⟨effects, made⟩ := create_silentWindow spinner
  have isOpen : (shown.window.afterAll {} ⟨1, by decide⟩ [.tick]).closing = false := by decide +kernel
  have asks : (Event.press "Escape").asksToClose = true := by decide +kernel
  have shut : shown.window.Meets {} ⟨1, by decide⟩ (Shuts {} ⟨1, by decide⟩) frameThenEscape :=
    ⟨[.tick], .press "Escape", [.tick], rfl, isOpen, .inl asks⟩
  obtain ⟨-, -, final, -, leave, ends, -⟩ := closing_is_final made {} ⟨1, by decide⟩ frameThenEscape
  have closing : last.window.closing = true := ends.mpr (.inl shut)
  obtain ⟨pending, -, canvasLost, silent⟩ := final closing [.press "q", .tick, .close]
  exact ⟨⟨effects, made⟩, leave.mpr shut, shut, closing, congrArg Step.effects silent⟩

end Cosmac.Window
