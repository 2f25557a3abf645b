import Cosmac.Frame
import Cosmac.Proofs.Marking

/-!
# The steps of a frame

A frame runs its instructions in a loop of its own, which stops early. Here the loop is put down to
plain steps: `FrameEnd` says with which step a frame ends, `exists_frameEnd` that the loop leaves
the machine as it is after that step, and `frame_cases` what the frame makes of it. Everything else
about frames follows from these.
-/

namespace Cosmac

open Console

/-- A setup that waits for the display and is otherwise plain. -/
def Setup.waiting : Setup :=
  { dialect := { displayWait := true } }

/-- Of the steps from a machine, counted from zero, step `j` is the last one of a frame of at most
`n` instructions: the frame goes on after each earlier one and does not after this one. -/
structure Machine.FrameEnd (s : Setup) (m : Machine) (n j : Nat) : Prop where
  lt : j < n
  goesOn : ∀ i < j, ((m.after s i).step s).fault? = none ∧
    (s.dialect.displayWait = true → (m.after s (i + 1)).dirty = false)
  ends : j + 1 < n → ((m.after s j).step s).fault? ≠ none ∨
    (s.dialect.displayWait = true ∧ (m.after s (j + 1)).dirty = true)

namespace Machine

variable {s : Setup} {m : Machine} {n j : Nat}

/-- A step does not end the frame it is part of. -/
def GoesOn (s : Setup) (m : Machine) : Prop :=
  (m.step s).fault? = none ∧ (s.dialect.displayWait = true → (m.step s).machine.dirty = false)

instance (s : Setup) (m : Machine) : Decidable (m.GoesOn s) :=
  inferInstanceAs (Decidable (_ ∧ _))

/-- A frame that goes on after its first step ends one step later than the rest of it. -/
theorem frameEnd_succ_iff :
    m.FrameEnd s (n + 1) (j + 1) ↔ m.GoesOn s ∧ (m.step s).machine.FrameEnd s n j := by
  constructor
  · intro last
    refine ⟨last.goesOn 0 (Nat.succ_pos j), ?_⟩
    refine { lt := Nat.lt_of_succ_lt_succ last.lt, goesOn := fun i before => ?_, ends := ?_ }
    · rw [← after_succ, ← after_succ]
      exact last.goesOn (i + 1) (Nat.succ_lt_succ before)
    · rw [← after_succ, ← after_succ]
      exact fun short => last.ends (Nat.succ_lt_succ short)
  · intro ⟨first, last⟩
    refine { lt := Nat.succ_lt_succ last.lt, goesOn := fun i before => ?_, ends := ?_ }
    · cases i with
      | zero => exact first
      | succ i =>
        rw [after_succ, after_succ]
        exact last.goesOn i (Nat.lt_of_succ_lt_succ before)
    · rw [after_succ, after_succ]
      exact fun short => last.ends (Nat.lt_of_succ_lt_succ short)

/-- **Every frame ends.** -/
theorem exists_frameEnd_of_pos (s : Setup) (positive : 0 < n) (m : Machine) :
    ∃ j, m.FrameEnd s n j := by
  induction n generalizing m with
  | zero => cases positive
  | succ n ih =>
    by_cases going : m.GoesOn s ∧ 0 < n
    · obtain ⟨j, last⟩ := ih going.2 (m.step s).machine
      exact ⟨j + 1, frameEnd_succ_iff.mpr ⟨going.1, last⟩⟩
    · refine ⟨0, { lt := Nat.succ_pos n, goesOn := ?_, ends := ?_ }⟩
      · exact fun i before => absurd before (Nat.not_lt_zero i)
      intro short
      have stops : ¬ m.GoesOn s := fun on => going ⟨on, Nat.lt_of_succ_lt_succ short⟩
      by_cases fine : (m.step s).fault? = none
      · refine .inr (Decidable.not_not.mp fun patient => stops ⟨fine, fun wait => ?_⟩)
        exact Bool.eq_false_iff.mpr fun dirty => patient ⟨wait, dirty⟩
      · exact .inl fine

/-- Where a frame waits for the display, no step but its last one touches the display. -/
theorem FrameEnd.unmarked (wait : s.dialect.displayWait = true) (last : m.FrameEnd s n j) :
    ∀ i < j, (m.after s i).marks s = false := by
  intro i before
  have clean := (last.goesOn i before).2 wait
  rw [after, step_dirty] at clean
  exact (Bool.or_eq_false_iff.mp clean).2

/-- What is reported in the course of a number of steps, in order. -/
def reports (s : Setup) (m : Machine) (n : Nat) : List Notice :=
  (List.range n).flatMap fun i => ((m.after s i).step s).notices

theorem reports_succ (s : Setup) (m : Machine) (n : Nat) :
    m.reports s (n + 1) = (m.step s).notices ++ (m.step s).machine.reports s n := by
  simp only [reports, List.range_succ_eq_map, List.flatMap_cons, List.flatMap_map, after_succ]
  rfl

end Machine

namespace Console

variable {s : Setup}

/-- A frame is over after a fault, or once it has something to show and has to wait. -/
theorem Running.isOver_iff {r : Running} :
    r.isOver s = true ↔
      r.fault? ≠ none ∨ (s.dialect.displayWait = true ∧ r.machine.dirty = true) := by
  simp [isOver, Option.isSome_iff_ne_none]

/-- **The loop of a frame is a number of steps.** -/
theorem Running.steps_of_frameEnd {n j : Nat} {r : Running} (last : r.machine.FrameEnd s n j) :
    r.steps s n = ⟨r.machine.after s (j + 1),
      (r.machine.reports s (j + 1)).reverse ++ r.reported,
      ((r.machine.after s j).step s).fault?⟩ := by
  -- on the number of instructions left
  induction n generalizing r j with
  | zero => exact absurd last.lt (Nat.not_lt_zero j)
  | succ n ih =>
    rw [Running.steps]
    cases j with
    | zero =>
      have reported : r.machine.reports s 1 = (r.machine.step s).notices := by
        rw [Machine.reports_succ]
        exact List.append_nil _
      rw [reported]
      split
      case isTrue => rfl
      case isFalse going =>
        -- a first step that the frame goes on after is its last one if there is no second
        have only : n = 0 := Nat.eq_zero_of_not_pos fun more =>
          going (Running.isOver_iff.mpr (last.ends (Nat.succ_lt_succ more)))
        rw [only]
        rfl
    | succ j =>
      obtain ⟨⟨fine, patient⟩, rest⟩ := Machine.frameEnd_succ_iff.mp last
      have going : ¬ (r.step s).isOver s = true := by
        rw [Running.isOver_iff]
        rintro (faulty | ⟨wait, dirty⟩)
        · exact faulty fine
        · have clean : (r.step s).machine.dirty = false := patient wait
          rw [clean] at dirty
          cases dirty
      have reported : r.machine.reports s (j + 2) =
          (r.machine.step s).notices ++ (r.step s).machine.reports s (j + 1) :=
        Machine.reports_succ s r.machine (j + 1)
      rw [if_neg going, ih rest, reported, Machine.after_succ s r.machine (j + 1),
        Machine.after_succ s r.machine j, List.reverse_append, List.append_assoc]
      rfl

/-- The loop leaves the machine of its last step and meets the fault of it. -/
theorem Running.exists_frameEnd (s : Setup) {n : Nat} (positive : 0 < n) (r : Running) :
    ∃ j, r.machine.FrameEnd s n j ∧ (r.steps s n).machine = r.machine.after s (j + 1) ∧
      (r.steps s n).fault? = ((r.machine.after s j).step s).fault? := by
  obtain ⟨j, last⟩ := Machine.exists_frameEnd_of_pos s positive r.machine
  rw [steps_of_frameEnd last]
  exact ⟨j, last, rfl, rfl⟩

/-! ## What a frame makes of its steps -/

/-- A speaker of either kind sounds as long as the timer runs. -/
theorem playing_follow (speaker : Speaker) (sound : Byte) :
    (follow speaker sound).1.playing = decide (sound ≠ 0) := by
  unfold follow
  by_cases off : sound = 0
  · rw [if_pos off, Speaker.playing_stop, decide_eq_false fun on => on off]
  · rw [if_neg off, Speaker.playing_start, decide_eq_true off]

/-- The instructions of a frame, carried out. -/
def framed (s : Setup) (pace : Pace) (c : Console) : Running :=
  Running.steps s ⟨c.machine, [], none⟩ pace.instructions

/-- What was reported while the instructions of a frame were carried out. -/
def Running.effects (r : Running) : List Effect :=
  r.reported.reverse.map Effect.ofMachine

/-- The console after the instructions of a frame, its tone and its timers; the display has yet to
be shown. -/
def turnOver (c : Console) (m : Machine) : Console where
  machine := m.tickTimers
  speaker := (follow c.speaker m.sound).1
  frames := c.frames + 1
  redraws := c.redraws

/-- What the instructions of a frame and its tone do to the world. -/
def frameEffects (c : Console) (r : Running) : List Effect :=
  r.effects ++ (follow c.speaker r.machine.sound).2.map Effect.ofAction

/-- The console after its display was shown. -/
def shown (c : Console) : Console :=
  { c with machine := c.machine.markShown, redraws := c.redraws + 1 }

/-- **A frame meets a fault, has nothing to show, is refused or is shown.** -/
theorem frame_cases (s : Setup) (pace : Pace) (accepts : Bool) (c : Console) :
    let run := c.framed s pace
    let done := c.turnOver run.machine
    (∃ f, run.fault? = some f ∧ c.frame s pace accepts =
        ⟨{ c with machine := run.machine }, run.effects, none, .fault f⟩) ∨
      (run.fault? = none ∧ run.machine.dirty = false ∧ c.frame s pace accepts =
        ⟨done, c.frameEffects run, none, .finished false⟩) ∨
      (run.fault? = none ∧ run.machine.dirty = true ∧ accepts = false ∧
        c.frame s pace accepts =
          ⟨done, c.frameEffects run, some run.machine.display, .refused⟩) ∨
      (run.fault? = none ∧ run.machine.dirty = true ∧ accepts = true ∧
        c.frame s pace accepts =
          ⟨done.shown, c.frameEffects run, some run.machine.display, .finished true⟩) := by
  intro run done
  have opened : Running.steps s ⟨c.machine, [], none⟩ pace.instructions = run := rfl
  have marked : run.machine.tickTimers.dirty = run.machine.dirty := rfl
  rw [frame]
  simp only [opened, marked]
  cases run.fault? with
  | some f => exact .inl ⟨f, rfl, rfl⟩
  | none =>
    cases run.machine.dirty with
    | false => exact .inr (.inl ⟨rfl, rfl, rfl⟩)
    | true =>
      cases accepts with
      | false => exact .inr (.inr (.inl ⟨rfl, rfl, rfl, rfl⟩))
      | true => exact .inr (.inr (.inr ⟨rfl, rfl, rfl, rfl⟩))

/-- A frame leaves what neither the timers nor the mark bear on as its instructions left it. -/
theorem view_frame {α : Type} (view : Machine → α) (ticked : ∀ m, view m.tickTimers = view m)
    (shown : ∀ m, view m.markShown = view m) (s : Setup) (pace : Pace) (accepts : Bool)
    (c : Console) :
    view (c.frame s pace accepts).console.machine = view (c.framed s pace).machine := by
  obtain ⟨f, -, same⟩ | ⟨-, -, same⟩ | ⟨-, -, -, same⟩ | ⟨-, -, -, same⟩ :=
    frame_cases s pace accepts c
  · rw [same]
  · rw [same]
    exact ticked _
  · rw [same]
    exact ticked _
  · rw [same]
    exact (shown _).trans (ticked _)

/-- After a frame without a fault the speaker sounds exactly if the sound timer ran at the end of its
instructions. -/
theorem playing_frame {s : Setup} {pace : Pace} {accepts : Bool} {c : Console}
    (fine : ∀ f, (c.frame s pace accepts).ending ≠ .fault f) :
    (c.frame s pace accepts).console.speaker.playing =
      decide ((c.framed s pace).machine.sound ≠ 0) := by
  obtain ⟨f, -, same⟩ | ⟨-, -, same⟩ | ⟨-, -, -, same⟩ | ⟨-, -, -, same⟩ :=
    frame_cases s pace accepts c
  · exact absurd (congrArg FrameResult.ending same) (fine f)
  all_goals
    rw [same]
    exact playing_follow _ _

end Console

end Cosmac
