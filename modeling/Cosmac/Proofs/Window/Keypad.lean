import Cosmac.Proofs.KeyHistory
import Cosmac.Proofs.Window.Handling

/-!
# One press, one key

A window and its machine both keep a record of the keyboard: the window of the keys that are held,
the machine of those among them that the program has yet to take. A press sets a key in both and a
release clears it in both, but a program that waits for a key clears it behind the window's back, and
a key that is repeated while it is held must not be set again.

Both records are read off the history of the keys: the window's says which keys are held, and the
machine's which of them are fresh. So one press is one key for the program, however often the
keyboard repeats it.
-/

namespace Cosmac.Window

open Keypad Keypad.Happening

variable {s : Setup} {pace : Pace} {w : Window} {e : Event} {events : List Event}
  {past : List Happening}

/-- What an event does to the keys: it strikes one, or it is a call whose frame takes some. -/
def happenings (s : Setup) (pace : Pace) (w : Window) (e : Event) : List Happening :=
  if w.closing then []
  else
    match e.stroke? with
    | some (k, down) => [.stroke k down]
    | none =>
      if e = .tick ∧ 0 < w.pending then (w.console.taken s pace).map .taken
      else []

/-- Nothing happens to the keys of a window that is closing. -/
theorem happenings_of_closing (s : Setup) (pace : Pace) (closing : w.closing = true) (e : Event) :
    w.happenings s pace e = [] :=
  if_pos closing

/-- A stroke of the pad is recorded as such. -/
theorem happenings_of_stroke {k : Nibble} {down : Bool} (isOpen : w.closing = false)
    (struck : e.stroke? = some (k, down)) : w.happenings s pace e = [.stroke k down] := by
  rw [happenings, if_neg (Bool.eq_false_iff.mp isOpen), struck]

/-- What strikes no key and is no call is not recorded. -/
theorem happenings_of_idle (unstruck : e.stroke? = none) (idle : e ≠ .tick) :
    w.happenings s pace e = [] := by
  rw [happenings, unstruck]
  split
  · rfl
  · exact if_neg fun due => idle due.1

/-- A call records the keys that its frame takes. -/
theorem happenings_tick (isOpen : w.closing = false) (one : w.pending = 1) :
    w.happenings s pace .tick = (w.console.taken s pace).map .taken := by
  rw [happenings, if_neg (Bool.eq_false_iff.mp isOpen)]
  exact if_pos ⟨rfl, one ▸ Nat.one_pos⟩

/-- What events do to the keys, in order. -/
def history (s : Setup) (pace : Pace) (w : Window) : List Event → List Happening
  | [] => []
  | e :: events =>
    w.happenings s pace e ++ (w.handle s pace e).window.history s pace events

/-- A stroke decides whether its own key is held. -/
theorem held_strike (w : Window) (k j : Nibble) (down : Bool) :
    (w.strike k down).held[j] = if j = k then down else w.held[j] := by
  unfold strike
  split
  next same =>
    by_cases own : j = k
    · rw [if_pos own, own, same]
    · rw [if_neg own]
  next => exact Table.getElem_set _ _ _ _

/-- A stroke reaches the machine unless the key is like that already. -/
theorem keys_strike (w : Window) (k : Nibble) (down : Bool) :
    (w.strike k down).console.machine.keys =
      if w.held[k] = down then w.console.machine.keys
      else w.console.machine.keys.set k down := by
  unfold strike
  split <;> rfl

/-- Both records of a window are those of its history. -/
structure Recorded (w : Window) (past : List Happening) : Prop where
  held : ∀ k, w.held[k] = true ↔ IsHeld k past
  keys : Tracks w.console.machine.keys past

/-- A stroke is recorded with what it does to the keys. -/
theorem Recorded.strike (recorded : w.Recorded past) (k : Nibble) (down : Bool) :
    (w.strike k down).Recorded (past ++ [.stroke k down]) := by
  refine ⟨fun j => ?_, ?_⟩
  · rw [held_strike, isHeld_stroke]
    by_cases own : k = j
    · rw [if_pos own.symm, if_pos own]
    · rw [if_neg (Ne.symm own), if_neg own]
      exact recorded.held j
  · rw [keys_strike]
    exact recorded.keys.strike recorded.held k down

/-- Taking keys leaves them held. -/
theorem Recorded.held_append (recorded : w.Recorded past) (keys : List Nibble) (k : Nibble) :
    w.held[k] = true ↔ IsHeld k (past ++ keys.map .taken) := by
  rw [recorded.held k]
  have none : strokesOf k (keys.map .taken) = [] := by
    simp [strokesOf, Function.comp_def, stroke?]
  rw [IsHeld, IsHeld, strokesOf_append, none, List.append_nil]

/-- A window that has answered an event has recorded it. -/
theorem Answer.recorded {step : Step} (isOpen : w.closing = false) (one : w.pending = 1)
    (recorded : w.Recorded past) (answer : Answer s pace w e step) :
    step.window.Recorded (past ++ w.happenings s pace e) := by
  have frame (accepts : Bool) : Tracks (w.console.frame s pace accepts).console.machine.keys
      (past ++ (w.console.taken s pace).map .taken) := recorded.keys.frame s pace accepts
  cases answer with
  | struck struck =>
    rw [happenings_of_stroke isOpen struck]
    exact recorded.strike _ _
  | ignored unstruck _ idle =>
    rw [happenings_of_idle unstruck idle, List.append_nil]
    exact ⟨recorded.held, recorded.keys⟩
  | shut asks =>
    obtain ⟨unstruck, idle⟩ := Event.of_asksToClose asks
    rw [happenings_of_idle unstruck idle, List.append_nil]
    exact ⟨recorded.held, recorded.keys⟩
  | framed | failed | lost =>
    rw [happenings_tick isOpen one]
    exact ⟨recorded.held_append _, frame _⟩

/-- Every event is recorded with what it does to the keys. -/
theorem recorded_handle (s : Setup) (pace : Pace) (one : w.OneCall) (recorded : w.Recorded past)
    (e : Event) : (w.handle s pace e).window.Recorded (past ++ w.happenings s pace e) := by
  cases closing : w.closing with
  | false => exact (answer_handle s pace closing (one closing) e).recorded closing (one closing) recorded
  | true =>
    rw [handle_of_closing s pace closing e, happenings_of_closing s pace closing, List.append_nil]
    exact ⟨recorded.held, recorded.keys⟩

/-- **A window records what happens to the keys**, whatever happens. -/
theorem recorded_afterAll (s : Setup) (pace : Pace) (one : w.OneCall) (recorded : w.Recorded past)
    (events : List Event) :
    (w.afterAll s pace events).Recorded (past ++ w.history s pace events) := by
  induction events generalizing w past with
  | nil =>
    rw [history, List.append_nil]
    exact recorded
  | cons e events ih =>
    rw [history, ← List.append_assoc]
    exact ih (oneCall_handle s pace one e).1 (recorded_handle s pace one recorded e)

/-- The strokes that are recorded are those of the event. -/
theorem strokes_happenings (s : Setup) (pace : Pace) (isOpen : w.closing = false) (e : Event) :
    (w.happenings s pace e).filterMap stroke? = e.stroke?.toList := by
  rw [happenings, if_neg (Bool.eq_false_iff.mp isOpen)]
  cases e.stroke? with
  | some stroke => rfl
  | none =>
    simp only
    split
    · simp [Function.comp_def, stroke?]
    · rfl

/-- As long as the window is open, no stroke is left out of its history. -/
theorem strokes_history (isOpen : (w.afterAll s pace events).closing = false) :
    (w.history s pace events).filterMap stroke? = events.filterMap Event.stroke? := by
  induction events generalizing w with
  | nil => rfl
  | cons e events ih =>
    have begins : w.closing = false := open_of_afterAll isOpen
    have first := strokes_happenings s pace begins e
    rw [history, List.filterMap_append, first, ih isOpen, List.filterMap_cons]
    cases e.stroke? <;> rfl

/-- **One press is one key for the program.** Take a window that was created and shown around a
machine whose keys are all up, any events and a key. As long as the window is open, its history has
all their strokes in order. The window holds the key exactly if its last stroke pressed it. The
machine has it down only if the window holds it, and exactly if it is held and was not taken since
the hold began. And between two releases of the key, or in any other stretch of the history without
a release of it, the program takes the key at most once, however often it is pressed. The last part
says what it is for a machine to take a key: an instruction that waits for one has the machine go on
behind it, and the key is in its register. -/
theorem one_press_one_key {title : String} {scale : Int} {library : Option Mixer} {c : Console}
    {first : Step} (made : create title scale library c = .ok first)
    (up : c.machine.keys = .fill false) (s : Setup) (pace : Pace) (events : List Event)
    (k : Nibble) :
    let shown := first.window.start.window
    let last := shown.afterAll s pace events
    let happened := shown.history s pace events
    (last.closing = false → happened.filterMap stroke? = events.filterMap Event.stroke?) ∧
      (last.held[k] = true ↔ IsHeld k happened) ∧
      (last.console.machine.keys[k] = true → last.held[k] = true) ∧
      (last.console.machine.keys[k] = true ↔ IsFresh k happened) ∧
      (∀ before between after : List Happening, happened = before ++ between ++ after →
        .stroke k false ∉ between → between.count (.taken k) ≤ 1) ∧
      ∀ (m : Machine) (j : Nibble), m.takes? s = some j ↔
        ∃ x, m.upcoming? s = some (.awaitKey x) ∧ (m.step s).machine.pc ≠ m.pc ∧
          (m.step s).machine.v[x] = j.setWidth 8 := by
  intro shown last happened
  obtain ⟨speaker, -, fresh⟩ := start_of_create made
  have one : shown.OneCall := fun _ => congrArg Window.pending fresh
  have begins : shown.Recorded [] := by
    refine ⟨fun j => ?_, ?_⟩
    · have none : shown.held = .fill false := congrArg Window.held fresh
      rw [none, Table.getElem_fill]
      exact ⟨nofun, fun held => absurd held (not_isHeld_nil j)⟩
    · have same : shown.console.machine.keys = .fill false :=
        (congrArg (fun w => w.console.machine.keys) fresh).trans up
      rw [same]
      exact tracks_nil
  have recorded : last.Recorded happened := recorded_afterAll s pace one begins events
  refine ⟨strokes_history, recorded.held k, fun down => ?_, recorded.keys.fresh k, ?_,
    fun _ _ => Machine.takes?_eq_some_iff⟩
  · exact (recorded.held k).mpr ((recorded.keys.fresh k).mp down).isHeld
  · intro before between after split unreleased
    exact count_taken_le_one (split ▸ recorded.keys.orderly) unreleased

/-- A console whose machine waits for a key and then for another one. -/
def reader : Console where
  machine := { Machine.empty with
    memory := (Table.fill 0x12).write 0x200 [0xF0, 0x0A, 0xF1, 0x0A] }
  speaker := .silent {}

/-- A key goes down, is repeated after the program has taken it, and comes up. -/
def repeatedStroke : List Event :=
  [.press "q", .tick, .press "Q", .tick, .release "q"]

/-- The machine of that console when the key `4` is down. -/
def reader.pressed : Machine :=
  reader.machine.setKey 4 true

theorem one_press_one_key_reader :
    let shown := (silentWindow reader).start.window
    let last := shown.afterAll {} ⟨2, by decide⟩ repeatedStroke
    let happened := shown.history {} ⟨2, by decide⟩ repeatedStroke
    let between : List Happening := [.stroke 4 true, .taken 4, .stroke 4 true]
    (∃ effects, create defaultTitle defaultScale none reader =
        .ok ⟨silentWindow reader, effects⟩) ∧
      reader.machine.keys = .fill false ∧ last.closing = false ∧
      happened = [] ++ between ++ [.stroke 4 false] ∧ .stroke 4 false ∉ between ∧
      happened.filterMap stroke? = repeatedStroke.filterMap Event.stroke? ∧
      between.count (.taken 4) ≤ 1 ∧
      reader.pressed.takes? {} = some 4 ∧
      ∃ x, reader.pressed.upcoming? {} = some (.awaitKey x) ∧
        (reader.pressed.step {}).machine.pc ≠ reader.pressed.pc ∧
        (reader.pressed.step {}).machine.v[x] = 4 := by
  intro shown last happened between
  obtain ⟨effects, made⟩ := create_silentWindow reader
  have up : reader.machine.keys = .fill false := rfl
  have isOpen : last.closing = false := by decide +kernel
  have split : happened = [] ++ between ++ [.stroke 4 false] := by decide +kernel
  have unreleased : .stroke 4 false ∉ between := by decide
  have record := one_press_one_key made up {} ⟨2, by decide⟩ repeatedStroke 4
  dsimp only at record
  obtain ⟨strokes, -, -, -, once, taking⟩ := record
  have takes : reader.pressed.takes? {} = some 4 := by decide +kernel
  exact ⟨⟨effects, made⟩, up, isOpen, split, unreleased, strokes isOpen,
    once [] between [.stroke 4 false] split unreleased, takes, (taking _ _).mp takes⟩

end Cosmac.Window
