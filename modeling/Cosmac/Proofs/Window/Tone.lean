import Cosmac.Machine.Program
import Cosmac.Proofs.Window.Closing

/-!
# The tone and the end of a window

A window turns its tone off when it is shut, whoever shuts it. When it is lost it does not: the
frame has followed the sound timer before it tries to paint, so a tone that the frame has turned on,
or has let sound, goes on in a window that no longer answers, and no later event turns it off.

`tone_of_closing` says exactly when this happens, and `tone_outlives_window` is a program to which it
happens.
-/

namespace Cosmac.Window

variable {s : Setup} {pace : Pace} {w : Window} {e : Event} {events : List Event}

/-- The event is a call whose frame lets the tone sound and then finds that the canvas is gone. -/
def LosesSounding (s : Setup) (pace : Pace) (w : Window) (e : Event) : Prop :=
  w.Loses s pace e ∧ (w.console.framed s pace).machine.sound ≠ 0

theorem playing_quiet (c : Console) : (quiet c).speaker.playing = false :=
  Speaker.playing_stop _

/-- An open window that an event closes goes on sounding only if it is lost while it sounds. -/
theorem Answer.tone {step : Step} (isOpen : w.closing = false)
    (answer : Answer s pace w e step) (closing : step.window.closing = true) :
    step.window.console.speaker.playing = true ↔ w.LosesSounding s pace e := by
  cases answer with
  | struck =>
    rw [closing_strike, isOpen] at closing
    cases closing
  | ignored =>
    rw [isOpen] at closing
    cases closing
  | framed =>
    rw [isOpen] at closing
    cases closing
  | shut asks =>
    rw [playing_quiet]
    refine ⟨nofun, ?_⟩
    rintro ⟨⟨-, rfl, -⟩, -⟩
    cases asks
  | failed ending =>
    rw [playing_quiet]
    refine ⟨nofun, ?_⟩
    rintro ⟨⟨-, -, refused⟩, -⟩
    rw [ending] at refused
    cases refused
  | lost ending =>
    have fine : ∀ f, (w.nextFrame s pace).ending ≠ .fault f := by simp [ending]
    rw [nextFrame, Console.playing_frame fine, decide_eq_true_iff]
    exact ⟨fun sounds => ⟨⟨isOpen, rfl, ending⟩, sounds⟩, fun loses => loses.2⟩

/-- **The tone of a window that is closing** goes on exactly if the window was lost while it
sounded. -/
theorem tone_afterAll (s : Setup) (pace : Pace) (isOpen : w.closing = false) (one : w.OneCall)
    (events : List Event) :
    ((w.afterAll s pace events).closing = true ∧
        (w.afterAll s pace events).console.speaker.playing = true) ↔
      w.Meets s pace (LosesSounding s pace) events := by
  induction events generalizing w with
  | nil =>
    refine ⟨fun closed => ?_, fun meets => absurd meets not_meets_nil⟩
    have closing : w.closing = true := closed.1
    rw [isOpen] at closing
    cases closing
  | cons e events ih =>
    have answer := answer_handle s pace isOpen (one isOpen) e
    have first : w.afterAll s pace (e :: events) =
        (w.handle s pace e).window.afterAll s pace events := rfl
    rw [meets_cons, first]
    cases closing : (w.handle s pace e).window.closing with
    | false =>
      rw [ih closing (oneCall_handle s pace one e).1]
      refine ⟨.inr, ?_⟩
      rintro (⟨loses, -⟩ | meets)
      · -- a window that was just lost is not open
        cases answer.outcome isOpen with
        | stays _ _ unlost => exact absurd loses unlost
        | shut _ _ unlost => exact absurd loses unlost
        | lost closed => rw [closing] at closed; cases closed
      · exact meets
    | true =>
      obtain ⟨pending, -, canvasLost, same⟩ := handleAll_of_closing s pace closing events
      have later : ¬ (w.handle s pace e).window.Meets s pace (LosesSounding s pace) events :=
        not_meets_of_closing (fun _ _ loses => loses.1.1) closing events
      rw [afterAll, same, or_iff_left later, ← answer.tone isOpen closing]
      exact ⟨fun sounds => sounds.2, fun sounds => ⟨closing, sounds⟩⟩

/-- A canvas that is never lost is not found gone. -/
theorem not_meets_loses (s : Setup) (pace : Pace) (one : w.OneCall) (there : w.canvasLost = false)
    (kept : .loseCanvas ∉ events) : ¬ w.Meets s pace (Loses s pace) events := by
  induction events generalizing w with
  | nil => exact not_meets_nil
  | cons e events ih =>
    rw [List.mem_cons, not_or] at kept
    have other : e ≠ .loseCanvas := fun same => kept.1 same.symm
    rw [meets_cons, not_or]
    constructor
    · intro loses
      have gone := loses.canvasLost
      rw [there] at gone
      cases gone
    · exact ih (oneCall_handle s pace one e).1 (canvasLost_handle s pace one other there) kept.2

/-- **When the tone outlives the window.** Take a window that was created and shown, with a speaker
of either kind, and any events. It is closing with its tone on exactly if one of the events was a
call whose frame let the tone sound and then found that the canvas was gone. A window that was shut,
by the user, the escape key or a fault, is closing with its tone off; and where the canvas is never
lost, no window is closing with its tone on. -/
theorem tone_of_closing {title : String} {scale : Int} {library : Option Mixer} {c : Console}
    {first : Step} (made : create title scale library c = .ok first) (s : Setup) (pace : Pace)
    (events : List Event) :
    let shown := first.window.start.window
    let last := shown.afterAll s pace events
    (last.closing = true ∧ last.console.speaker.playing = true ↔
        shown.Meets s pace (LosesSounding s pace) events) ∧
      (shown.Meets s pace (Shuts s pace) events →
        last.closing = true ∧ last.console.speaker.playing = false) ∧
      (.loseCanvas ∉ events → last.closing = true → last.console.speaker.playing = false) := by
  intro shown last
  obtain ⟨speaker, -, fresh⟩ := start_of_create made
  have isOpen : shown.closing = false := congrArg Window.closing fresh
  have there : shown.canvasLost = false := congrArg Window.canvasLost fresh
  have one : shown.OneCall := fun _ => congrArg Window.pending fresh
  have tone := tone_afterAll s pace isOpen one events
  obtain ⟨-, -, ends, apart⟩ := (outcome_handleAll s pace isOpen one events).leave
  have quietly (kept : ¬ shown.Meets s pace (Loses s pace) events) (closing : last.closing = true) :
      last.console.speaker.playing = false := by
    cases sounds : last.console.speaker.playing with
    | false => rfl
    | true => exact absurd ((tone.mp ⟨closing, sounds⟩).imp fun _ _ loses => loses.1) kept
  refine ⟨tone, fun shut => ?_, fun kept => quietly (not_meets_loses s pace one there kept)⟩
  have closing : last.closing = true := ends.mpr (.inl shut)
  exact ⟨closing, quietly (fun lost => apart ⟨shut, lost⟩) closing⟩

/-- A console whose machine draws the same sprite again and again while its sound timer runs. -/
def singer : Console where
  machine := { Machine.empty with memory := .fill 0xD1, sound := 5 }
  speaker := .silent {}

theorem tone_of_closing_singer :
    let shown := (silentWindow singer).start.window
    let lost := shown.afterAll {} ⟨1, by decide⟩ [.loseCanvas, .tick, .close]
    let shut := shown.afterAll {} ⟨1, by decide⟩ [.tick, .close]
    (∃ effects, create defaultTitle defaultScale none singer =
        .ok ⟨silentWindow singer, effects⟩) ∧
      (lost.closing = true ∧ lost.console.speaker.playing = true) ∧
      .loseCanvas ∉ [Event.tick, .close] ∧ shut.closing = true ∧
      shut.console.speaker.playing = false := by
  intro shown lost shut
  obtain ⟨effects, made⟩ := create_silentWindow singer
  have refused : ((shown.afterAll {} ⟨1, by decide⟩ [.loseCanvas]).nextFrame {}
      ⟨1, by decide⟩).ending = .refused := by decide +kernel
  have sounds : ((shown.afterAll {} ⟨1, by decide⟩ [.loseCanvas]).console.framed {}
      ⟨1, by decide⟩).machine.sound ≠ 0 := by decide +kernel
  have kept : .loseCanvas ∉ [Event.tick, .close] := by decide
  have closing : shut.closing = true := by decide +kernel
  obtain ⟨tone, -, -⟩ :=
    tone_of_closing made {} ⟨1, by decide⟩ [.loseCanvas, .tick, .close]
  obtain ⟨-, -, quiet⟩ := tone_of_closing made {} ⟨1, by decide⟩ [.tick, .close]
  refine ⟨⟨effects, made⟩, tone.mpr ?_, kept, closing, quiet kept closing⟩
  exact ⟨[.loseCanvas], .tick, [.close], rfl, ⟨rfl, rfl, refused⟩, sounds⟩

/-- A program that sets the sound timer to two and draws a digit. -/
def digitWithTone : Program :=
  .bytes [0x60, 0x02, 0xF0, 0x18, 0xD0, 0x05, 0x12, 0x06]

/-- **The tone can outlive the window.** The program turns the tone on and draws in one frame, and
the frame finds that the canvas is gone. -/
theorem tone_outlives_window :
    ¬ ∀ (program : Program) (m : Machine) (size : Nat) (s : Setup) (pace : Pace) (title : String)
        (scale : Int) (library : Option Mixer) (first : Step) (events : List Event),
      Machine.boot program = .ok (m, size) →
      create title scale library ⟨m, .silent {}, 0, 0⟩ = .ok first →
        let last := first.window.start.window.afterAll s pace events
        last.closing = true → last.console.speaker.playing = false := by
  intro quiet
  have booted : Machine.boot digitWithTone = .ok (_, 8) := rfl
  obtain ⟨effects, made⟩ := create_silentWindow ⟨_, .silent {}, 0, 0⟩
  have still := quiet digitWithTone _ 8 {} ⟨3, by decide⟩ _ _ none _ [.loseCanvas, .tick] booted made
  dsimp only at still
  revert still
  decide +kernel

end Cosmac.Window
