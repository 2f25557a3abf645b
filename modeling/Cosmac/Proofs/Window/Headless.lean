import Cosmac.Operation
import Cosmac.Proofs.Window.Handling

/-!
# Windows without the window

What a window does to its console can be done without a window. The events of the keyboard and the
calls come down to a list of operations (`commands`), and a console with a silent speaker on which
they are carried out, up to the first fault, goes through the same states. This holds after every
number of events, so both meet a fault in the same frame.

What does not come down to operations is the tone of a window that has met a fault: the window turns
it off, and without a window it stays as it was.
-/

namespace Cosmac

namespace Console

variable {c d : Console}

/-- The consoles differ in nothing but their speakers. -/
structure Alike (c d : Console) : Prop where
  machine : c.machine = d.machine
  frames : c.frames = d.frames
  redraws : c.redraws = d.redraws

/-- **A frame does not depend on the speaker.** -/
theorem Alike.frame (alike : c.Alike d) (s : Setup) (pace : Pace) (accepts : Bool) :
    (c.frame s pace accepts).console.Alike (d.frame s pace accepts).console ∧
      (c.frame s pace accepts).ending = (d.frame s pace accepts).ending := by
  obtain ⟨machine, frames, redraws⟩ := alike
  simp only [Console.frame, machine, frames, redraws]
  generalize Running.steps s ⟨d.machine, [], none⟩ pace.instructions = run
  cases run.fault? with
  | some f => exact ⟨⟨rfl, rfl, rfl⟩, rfl⟩
  | none =>
    cases run.machine.tickTimers.dirty with
    | false => exact ⟨⟨rfl, rfl, rfl⟩, rfl⟩
    | true => cases accepts <;> exact ⟨⟨rfl, rfl, rfl⟩, rfl⟩

/-- A frame without a fault leaves every speaker as the sound timer wants it. -/
theorem Alike.playing_frame (alike : c.Alike d) {s : Setup} {pace : Pace} {accepts : Bool}
    (fine : ∀ f, (c.frame s pace accepts).ending ≠ .fault f) :
    (c.frame s pace accepts).console.speaker.playing =
      (d.frame s pace accepts).console.speaker.playing := by
  have sameEnding := (alike.frame s pace accepts).2
  rw [Console.playing_frame fine, Console.playing_frame (sameEnding ▸ fine), framed, framed,
    alike.machine]

/-- The console with a speaker that makes no sound. -/
def silenced (c : Console) : Console :=
  { c with speaker := .silent {} }

/-- A console after a number of operations, and the fault that ended them. -/
structure Driven where
  console : Console
  fault? : Option Fault

/-- Carries out operations one after another; a fault ends them. -/
def drive (s : Setup) (pace : Pace) (c : Console) : List Operation → Driven
  | [] => ⟨c, none⟩
  | op :: ops =>
    let result := c.operate s pace op
    match result.ending with
    | .fault f => ⟨result.console, some f⟩
    | _ => result.console.drive s pace ops

variable {s : Setup} {pace : Pace} {op : Operation} {ops : List Operation}

/-- An operation that fails is the last one. -/
theorem drive_of_fault {f : Fault} (failed : (c.operate s pace op).ending = .fault f) :
    c.drive s pace (op :: ops) = ⟨(c.operate s pace op).console, some f⟩ := by
  simp only [drive, failed]

theorem drive_setKey (k : Nibble) (down : Bool) :
    c.drive s pace (.setKey k down :: ops) =
      (c.withMachine (c.machine.setKey k down)).console.drive s pace ops := rfl

/-- After an operation that does not fail comes the next one. -/
theorem drive_of_fine (fine : ∀ f, (c.operate s pace op).ending ≠ .fault f) :
    c.drive s pace (op :: ops) = (c.operate s pace op).console.drive s pace ops := by
  rw [drive]
  split
  next f failed => exact absurd failed (fine f)
  next => rfl

end Console

namespace Window

open Console

variable {s : Setup} {pace : Pace} {w : Window} {c : Console} {e : Event} {events : List Event}

/-- The operations that events come down to, in front of a screen that takes every picture. A key
that is struck changes unless it is like that already, and a call runs a frame. -/
def commands (held : Table 4 Bool) : List Event → List Operation
  | [] => []
  | e :: events =>
    match e.stroke? with
    | some (k, down) =>
      if held[k] = down then commands held events
      else .setKey k down :: commands (held.set k down) events
    | none =>
      if e = .tick then .frame true :: commands held events
      else commands held events

/-- The window stands where a console without a window stands that has met the fault, if any. -/
structure Follows (w : Window) (d : Driven) : Prop where
  alike : w.console.Alike d.console
  fault : w.fault? = d.fault?
  closing : w.closing = d.fault?.isSome
  playing : d.fault? = none → w.console.speaker.playing = d.console.speaker.playing

/-- A stroke that changes its key is followed by setting it. -/
theorem Follows.strike {k : Nibble} {down : Bool} (follows : w.Follows ⟨c, none⟩)
    (changes : w.held[k] ≠ down) :
    (w.strike k down).Follows ⟨(c.withMachine (c.machine.setKey k down)).console, none⟩ := by
  rw [Window.strike, if_neg changes]
  refine ⟨⟨?_, follows.alike.frames, follows.alike.redraws⟩, follows.fault, follows.closing,
    follows.playing⟩
  exact congrArg (Machine.setKey · k down) follows.alike.machine

/-- A fault is the last thing that either of them meets. -/
theorem Follows.afterAll {f : Fault} (follows : w.Follows ⟨c, some f⟩) (s : Setup) (pace : Pace)
    (events : List Event) : (w.afterAll s pace events).Follows ⟨c, some f⟩ := by
  obtain ⟨pending, -, canvasLost, final⟩ := handleAll_of_closing s pace follows.closing events
  rw [Window.afterAll, final]
  exact ⟨follows.alike, follows.fault, follows.closing,
    fun fine => absurd fine (Option.some_ne_none f)⟩

/-- **The window follows the console through every number of events.** -/
theorem follows_afterAll (s : Setup) (pace : Pace) (follows : w.Follows ⟨c, none⟩)
    (one : w.pending = 1) (there : w.canvasLost = false)
    (plain : ∀ e ∈ events, e.asksToClose = false ∧ e ≠ .loseCanvas) :
    (w.afterAll s pace events).Follows (c.drive s pace (commands w.held events)) := by
  -- on the events; which operations are left depends on the keys that the window holds by now
  induction events generalizing w c with
  | nil => exact follows
  | cons e events ih =>
    have isOpen : w.closing = false := follows.closing
    obtain ⟨stays, kept⟩ := plain e List.mem_cons_self
    have rest : ∀ e ∈ events, e.asksToClose = false ∧ e ≠ .loseCanvas :=
      fun e' among => plain e' (List.mem_cons_of_mem e among)
    have taken : w.nextFrame s pace = w.console.frame s pace true := by
      rw [nextFrame, there]
      rfl
    obtain ⟨alike, ends⟩ := follows.alike.frame s pace true
    have answer := answer_handle s pace isOpen one e
    show ((w.handle s pace e).window.afterAll s pace events).Follows _
    generalize w.handle s pace e = step at answer
    cases answer with
    | @struck _ k down _ struck =>
      simp only [commands, struck]
      by_cases unchanged : w.held[k] = down
      · rw [if_pos unchanged, Window.strike, if_pos unchanged]
        exact ih follows one there rest
      · have held : (w.strike k down).held = w.held.set k down := by
          rw [Window.strike, if_neg unchanged]
        rw [if_neg unchanged, drive_setKey, ← held]
        exact ih (follows.strike unchanged) (by simp [one]) (by simp [there]) rest
    | ignored unstruck _ idle =>
      simp only [commands, unstruck, if_neg idle, canvasGone_of_ne kept]
      exact ih follows one there rest
    | shut asks =>
      rw [stays] at asks
      cases asks
    | framed ending =>
      rw [taken] at ending ⊢
      have fine : ∀ f, (w.console.frame s pace true).ending ≠ .fault f := by simp [ending]
      have driven : c.drive s pace (commands w.held (.tick :: events)) =
          (c.frame s pace true).console.drive s pace (commands w.held events) :=
        drive_of_fine (ends ▸ fine)
      rw [driven]
      exact ih ⟨alike, follows.fault, follows.closing,
        fun _ => follows.alike.playing_frame fine⟩ rfl there rest
    | @failed f _ ending =>
      rw [taken] at ending ⊢
      have driven : c.drive s pace (commands w.held (.tick :: events)) =
          ⟨(c.frame s pace true).console, some f⟩ :=
        drive_of_fault (ends.symm.trans ending)
      rw [driven]
      refine Follows.afterAll ?_ s pace events
      exact ⟨⟨alike.machine, alike.frames, alike.redraws⟩, rfl, rfl,
        fun fine => absurd fine (Option.some_ne_none f)⟩
    | lost ending =>
      -- a console without a window has no canvas to lose, and this window still has its own
      have gone : w.canvasLost = true := Loses.canvasLost ⟨isOpen, rfl, ending⟩
      rw [there] at gone
      cases gone

/-- **A window is its console, driven by the keyboard.** Take a window that was created and shown,
with a speaker of either kind, and any events by which nobody asks to close it and the canvas stays.
After them, and so after each of them, its machine and the numbers of its frames and redraws are
those of the same console with a silent speaker that has carried out what the events come down to.
As long as no fault was met the tone sounds in both or in none. Once one was met, the window keeps
it, is closing, and leaves its console alone whatever happens later. -/
theorem console_afterAll {title : String} {scale : Int} {library : Option Mixer} {c : Console}
    {first : Step} (made : create title scale library c = .ok first) (s : Setup) (pace : Pace)
    {events : List Event} (plain : ∀ e ∈ events, e.asksToClose = false ∧ e ≠ .loseCanvas) :
    let last := first.window.start.window.afterAll s pace events
    let run := c.silenced.drive s pace (commands (.fill false) events)
    last.console.machine = run.console.machine ∧
      last.console.frames = run.console.frames ∧
      last.console.redraws = run.console.redraws ∧
      (run.fault? = none → last.console.speaker.playing = run.console.speaker.playing) ∧
      last.fault? = run.fault? ∧
      last.closing = run.fault?.isSome ∧
      (run.fault? ≠ none → ∀ later : List Event,
        (last.afterAll s pace later).console = last.console) := by
  intro last run
  obtain ⟨speaker, silent, fresh⟩ := start_of_create made
  have begins : first.window.start.window.Follows ⟨c.silenced, none⟩ := by
    rw [fresh]
    exact ⟨⟨rfl, rfl, rfl⟩, rfl, rfl, fun _ => silent⟩
  have held : first.window.start.window.held = .fill false := congrArg Window.held fresh
  have follows : last.Follows run := by
    have through := follows_afterAll s pace begins (congrArg Window.pending fresh)
      (congrArg Window.canvasLost fresh) plain
    rw [held] at through
    exact through
  refine ⟨follows.alike.machine, follows.alike.frames, follows.alike.redraws, follows.playing,
    follows.fault, follows.closing, fun failed later => ?_⟩
  have closing : last.closing = true := by
    rw [follows.closing, Option.isSome_iff_ne_none]
    exact failed
  obtain ⟨pending, -, canvasLost, final⟩ := handleAll_of_closing s pace closing later
  rw [Window.afterAll, final]

/-- A console whose machine waits for a key and then finds no instruction. -/
def listener : Console where
  machine := { Machine.empty with memory := (Table.fill 0xFF).write 0x200 [0xF0, 0x0A] }
  speaker := .silent {}

/-- A key in capital letters that is held down until the machine has taken it, repeated, and
released; a key that means nothing; and the calls of four frames. -/
def strokesAndFrames : List Event :=
  [.tick, .press "Q", .tick, .press "q", .release "q", .press "Up", .tick, .tick]

theorem console_afterAll_listener :
    let last := (silentWindow listener).start.window.afterAll {} ⟨1, by decide⟩ strokesAndFrames
    let run := listener.silenced.drive {} ⟨1, by decide⟩ (commands (.fill false) strokesAndFrames)
    (∃ effects, create defaultTitle defaultScale none listener =
        .ok ⟨silentWindow listener, effects⟩) ∧
      (∀ e ∈ strokesAndFrames, e.asksToClose = false ∧ e ≠ .loseCanvas) ∧
      commands (.fill false) strokesAndFrames =
        [.frame true, .setKey 4 true, .frame true, .setKey 4 false, .frame true, .frame true] ∧
      run.fault? = some (.unknown 0xFFFF 0x202) ∧
      last.console.machine = run.console.machine ∧ last.fault? = run.fault? ∧
      last.closing = true ∧
      (last.afterAll {} ⟨1, by decide⟩ [.press "q", .close]).console = last.console := by
  intro last run
  obtain ⟨effects, made⟩ := create_silentWindow listener
  have plain : ∀ e ∈ strokesAndFrames, e.asksToClose = false ∧ e ≠ .loseCanvas := by
    decide +kernel
  have operations : commands (.fill false) strokesAndFrames =
      [.frame true, .setKey 4 true, .frame true, .setKey 4 false, .frame true, .frame true] := by
    decide +kernel
  have failed : run.fault? = some (.unknown 0xFFFF 0x202) := by
    decide +kernel
  have followed := console_afterAll made {} ⟨1, by decide⟩ plain
  dsimp only at followed
  obtain ⟨machine, -, -, -, fault, closing, final⟩ := followed
  -- from here on the two runs are compared as they are written, not by running them
  subst last run
  refine ⟨⟨effects, made⟩, plain, operations, failed, machine, fault, ?_, ?_⟩
  · exact closing.trans (congrArg Option.isSome failed)
  · refine final ?_ [.press "q", .close]
    intro none
    have contra := failed.symm.trans none
    cases contra

end Window

end Cosmac
