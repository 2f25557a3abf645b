import Cosmac.Proofs.Deeds
import Cosmac.Proofs.Faults
import Cosmac.Proofs.FrameCounts

/-!
# Frames that fail

A frame that meets a fault has done what its steps do one by one up to that fault, and nothing of
what follows the instructions of a frame: no tone, no countdown, no count and no picture
(`frame_of_failsAt`). It leaves a stopped machine, of which every later frame is refused as a whole
(`frame_of_crashed`). A session keeps what the frames before the failing one did
(`Session.exists_failing`, `FailsAfter.counted`).
-/

namespace Cosmac

namespace Machine

/-- Of the steps of a frame of at most `n` instructions, counted from zero, step `j` is the first
one that meets a fault. -/
structure FailsAt (s : Setup) (m : Machine) (n j : Nat) (f : Fault) : Prop where
  lt : j < n
  goesOn : ∀ i < j, (m.after s i).GoesOn s
  fails : ((m.after s j).step s).fault? = some f

/-- A frame ends at the step that fails. -/
theorem FailsAt.frameEnd {s : Setup} {m : Machine} {n j : Nat} {f : Fault}
    (failing : m.FailsAt s n j f) : m.FrameEnd s n j where
  lt := failing.lt
  goesOn := failing.goesOn
  ends := fun _ => .inl (by rw [failing.fails]; nofun)

end Machine

namespace Console

open Machine

variable {s : Setup} {pace : Pace} {c : Console} {j k n : Nat} {f : Fault}

/-! ## The failing frame -/

/-- **A frame that fails is as many steps.** -/
theorem frame_of_failsAt (accepts : Bool) (failing : c.machine.FailsAt s pace.instructions j f) :
    c.frame s pace accepts =
      ⟨{ c with machine := c.machine.after s (j + 1) },
        (c.machine.reports s (j + 1)).map Effect.ofMachine, none, .fault f⟩ := by
  have run : c.framed s pace = ⟨c.machine.after s (j + 1),
      (c.machine.reports s (j + 1)).reverse ++ [], some f⟩ :=
    failing.fails ▸ Running.steps_of_frameEnd failing.frameEnd
  obtain ⟨g, bad, same⟩ | ⟨fine, -⟩ | ⟨fine, -⟩ | ⟨fine, -⟩ := frame_cases s pace accepts c
  · rw [run] at bad same
    cases bad
    rw [same, Running.effects, List.append_nil, List.reverse_reverse]
  all_goals
    rw [run] at fine
    cases fine

/-- A frame ends with a fault exactly if one of its steps fails. -/
theorem frame_fault_iff (accepts : Bool) :
    (c.frame s pace accepts).ending = .fault f ↔
      ∃ j, c.machine.FailsAt s pace.instructions j f := by
  constructor
  · intro faulty
    obtain ⟨j, last, -, fault⟩ := Running.exists_frameEnd s pace.positive ⟨c.machine, [], none⟩
    obtain ⟨g, bad, same⟩ | ⟨-, -, same⟩ | ⟨-, -, -, same⟩ | ⟨-, -, -, same⟩ :=
      frame_cases s pace accepts c
    · rw [same] at faulty
      cases faulty
      exact ⟨j, { lt := last.lt, goesOn := last.goesOn, fails := fault.symm.trans bad }⟩
    all_goals
      rw [same] at faulty
      cases faulty
  · intro ⟨j, failing⟩
    rw [frame_of_failsAt accepts failing]

/-- Steps that are done from outside do nothing but to the machine. -/
theorem afterAll_steps (s : Setup) (pace : Pace) (c : Console) (n : Nat) :
    c.afterAll s pace (List.replicate n .step) = { c with machine := c.machine.after s n } := by
  induction n generalizing c with
  | zero => rfl
  | succ n ih =>
    rw [List.replicate_succ, afterAll_cons, ih, after_succ]
    rfl

/-- A frame of a machine that has stopped is refused and changes nothing. -/
theorem frame_of_crashed (pace : Pace) (accepts : Bool) (crashed : c.machine.crashed = true) :
    c.frame s pace accepts = ⟨c, [], none, .fault .halted⟩ := by
  have halted : c.machine.step s = ⟨c.machine, [], some .halted⟩ := step_of_crashed crashed
  have failing : c.machine.FailsAt s pace.instructions 0 .halted :=
    { lt := pace.positive
      goesOn := fun i before => absurd before (Nat.not_lt_zero i)
      fails := congrArg Reply.fault? halted }
  have silent : c.machine.reports s 1 = [] := by
    rw [reports_succ, halted]
    rfl
  have same : c.machine.after s 1 = c.machine := congrArg Reply.machine halted
  rw [frame_of_failsAt accepts failing, silent, same]
  rfl

/-! ## The frames before it -/

/-- Of the frames that are run one after another, `k` are finished and the next one fails. -/
structure FailsAfter (s : Setup) (pace : Pace) (c : Console) (k : Nat) (f : Fault) : Prop where
  finished : ∀ p ∈ c.play s pace (List.replicate k []), ∃ shown,
    p.result.ending = .finished shown
  fails : ((c.afterAll s pace (schedule (List.replicate k []))).frame s pace true).ending = .fault f

/-- In front of a screen that takes every picture a frame is finished or fails. -/
theorem ending_cases (s : Setup) (pace : Pace) (c : Console) :
    (∃ f, (c.frame s pace true).ending = .fault f) ∨
      ∃ shown, (c.frame s pace true).ending = .finished shown := by
  obtain ⟨f, -, same⟩ | ⟨-, -, same⟩ | ⟨-, -, refused, -⟩ | ⟨-, -, -, same⟩ :=
    frame_cases s pace true c
  · exact .inl ⟨f, by rw [same]⟩
  · exact .inr ⟨false, by rw [same]⟩
  · cases refused
  · exact .inr ⟨true, by rw [same]⟩

/-- A frame that is finished is counted, and so is its picture. -/
theorem counts_of_finished {accepts shown : Bool}
    (done : (c.frame s pace accepts).ending = .finished shown) :
    (c.frame s pace accepts).console.frames = c.frames + 1 ∧
      (c.frame s pace accepts).console.redraws = c.redraws + shown.toNat := by
  obtain ⟨f, -, same⟩ | ⟨-, -, same⟩ | ⟨-, -, -, same⟩ | ⟨-, -, -, same⟩ :=
    frame_cases s pace accepts c <;>
  rw [same] at done ⊢ <;> cases done <;> exact ⟨rfl, rfl⟩

/-- Frames that are finished are counted, and so are the pictures that they showed. -/
theorem counts_of_play
    (finished : ∀ p ∈ c.play s pace (List.replicate k []), ∃ shown,
      p.result.ending = .finished shown) :
    (c.afterAll s pace (schedule (List.replicate k []))).frames = c.frames + k ∧
      (c.afterAll s pace (schedule (List.replicate k []))).redraws = c.redraws +
        (c.play s pace (List.replicate k [])).countP (·.result.ending = .finished true) := by
  induction k generalizing c with
  | zero => exact ⟨rfl, rfl⟩
  | succ k ih =>
    rw [play_replicate_succ] at finished ⊢
    obtain ⟨⟨shown, first⟩, others⟩ := List.forall_mem_cons.mp finished
    obtain ⟨frames, redraws⟩ := ih others
    obtain ⟨frame, redraw⟩ := counts_of_finished first
    rw [afterAll_replicate_succ, List.countP_cons, first, frames, redraws, frame, redraw]
    cases shown <;> simp <;> omega

/-- **A session that ends with a fault ends with the first frame that fails.** -/
theorem Session.exists_failing {r : Session} (fine : r.fault? = none)
    (fault : (r.frames s pace n).fault? = some f) :
    ∃ k < n, r.console.FailsAfter s pace k f := by
  induction n generalizing r with
  | zero =>
    rw [Session.frames, fine] at fault
    cases fault
  | succ n ih =>
    obtain ⟨g, bad⟩ | ⟨shown, done⟩ := ending_cases s pace r.console
    · have failed : (r.frame s pace).fault? = some g := by simp only [Session.frame, bad]
      rw [Session.frames, if_pos (by rw [failed]; rfl), failed] at fault
      cases fault
      refine ⟨0, Nat.succ_pos n, { finished := ?_, fails := bad }⟩
      exact fun p none => absurd none List.not_mem_nil
    · have going : (r.frame s pace).fault? = none := by simp only [Session.frame, done]
      rw [Session.frames, if_neg (by rw [going]; decide)] at fault
      obtain ⟨k, before, failing⟩ := ih going fault
      refine ⟨k + 1, Nat.succ_lt_succ before, { finished := ?_, fails := ?_ }⟩
      · exact List.forall_mem_cons.mpr ⟨⟨shown, done⟩, failing.finished⟩
      · rw [afterAll_replicate_succ]
        exact failing.fails

/-- The session that ends with a frame that fails. -/
theorem run_of_failsAfter {frames : Int} (within : k < frames)
    (failing : c.FailsAfter s pace k f) :
    c.run s pace frames =
      { console := ((c.afterAll s pace (schedule (List.replicate k []))).frame s pace true).console
        done := ((c.afterAll s pace (schedule (List.replicate k []))).frame s pace true).effects ::
          ((c.play s pace (List.replicate k [])).map fun p => p.result.effects).reverse
        pictures := (pictures (c.play s pace (List.replicate k []))).reverse
        fault? := some f } := by
  obtain ⟨j, failsAt⟩ := (frame_fault_iff true).mp failing.fails
  have unshown := congrArg FrameResult.picture? (frame_of_failsAt true failsAt)
  obtain ⟨l, length⟩ : ∃ l, frames.toNat = k + (l + 1) := ⟨frames.toNat - k - 1, by omega⟩
  have complete : ∀ p ∈ c.play s pace (List.replicate k []), ∀ g, p.result.ending ≠ .fault g := by
    intro p mem g faulty
    obtain ⟨shown, done⟩ := failing.finished p mem
    rw [faulty] at done
    cases done
  have session := Session.frames_of_fine (r := { console := c }) rfl k (l + 1) complete
  have failed : (Session.frame s pace
      { console := c.afterAll s pace (schedule (List.replicate k []))
        done := ((c.play s pace (List.replicate k [])).map fun p => p.result.effects).reverse ++ []
        pictures := (pictures (c.play s pace (List.replicate k []))).reverse ++ [] }).fault? =
      some f := by
    simp only [Session.frame, failing.fails]
  rw [Session.frames, if_pos (by rw [failed]; rfl)] at session
  rw [run, length, session, if_pos (by rw [failed]; rfl)]
  simp only [Session.frame, failing.fails, unshown, List.append_nil]
  rfl

/-- A session ends with a fault exactly if one of its frames does. -/
theorem run_fault_iff {frames : Int} :
    (c.run s pace frames).fault? = some f ↔ ∃ k : Nat, k < frames ∧ c.FailsAfter s pace k f := by
  constructor
  · intro fault
    have met : (Session.frames s pace { console := c } frames.toNat).fault? = some f := by
      rw [run] at fault
      split at fault <;> exact fault
    obtain ⟨k, before, failing⟩ := Session.exists_failing rfl met
    exact ⟨k, by omega, failing⟩
  · intro ⟨k, within, failing⟩
    rw [run_of_failsAfter within failing]

/-- **A frame that fails stops at the fault.** It fails exactly if one of its steps does. Then it is
as if the steps up to that one were done one by one: each before it succeeded and keeps its effect,
and of the one that failed the program counter and the mark of the stopped machine are left. The
timers are as they were unless an instruction of the frame set them, nothing else about the console
has changed, nothing was reported but by the machine, and no picture was offered. Every later frame
is refused and changes nothing, whatever is done in between. A session fails exactly if one of its
frames does, and it keeps what those before that one did and counted. -/
theorem failed_frame (s : Setup) (pace : Pace) (c : Console) :
    (∀ accepts f, (c.frame s pace accepts).ending = .fault f ↔
        ∃ j, c.machine.FailsAt s pace.instructions j f) ∧
      (∀ j f, c.machine.FailsAt s pace.instructions j f →
        let last := c.machine.after s j
        let failed : Console := { c with machine := c.machine.after s (j + 1) }
        c.machine.Succeeds s j ∧
          failed = c.afterAll s pace (List.replicate (j + 1) .step) ∧
          failed.machine =
            (if last.crashed then last else { last with pc := last.pc + 2, crashed := true }) ∧
          (∀ accepts, c.frame s pace accepts =
            ⟨failed, (c.machine.reports s (j + 1)).map Effect.ofMachine, none, .fault f⟩) ∧
          (∀ timer, (∀ deed ∈ c.frameDeeds s pace, deed.instruction.sets timer = false) →
            failed.machine.timer timer = c.machine.timer timer) ∧
          ∀ (ops : List Operation) (pace' : Pace) (accepts : Bool),
            let later := failed.afterAll s pace ops
            later.frame s pace' accepts = ⟨later, [], none, .fault .halted⟩) ∧
      ∀ (n : Int) f,
        let run := c.run s pace n
        (run.fault? = some f ↔ ∃ k : Nat, k < n ∧ c.FailsAfter s pace k f) ∧
          ∀ k : Nat, k < n → c.FailsAfter s pace k f →
            let frames := c.play s pace (List.replicate k [])
            let before := c.afterAll s pace (schedule (List.replicate k []))
            let result := before.frame s pace true
            run.console = { before with machine := result.console.machine } ∧
              run.console.frames = c.frames + k ∧
              run.console.redraws =
                c.redraws + frames.countP (·.result.ending = .finished true) ∧
              run.pictures = (pictures frames).reverse ∧
              run.effects = (frames.map fun p => p.result.effects).flatten ++ result.effects := by
  refine ⟨fun accepts f => frame_fault_iff accepts, ?_, ?_⟩
  · intro j f failing last failed
    have machine : (c.framed s pace).machine = failed.machine :=
      congrArg Running.machine (Running.steps_of_frameEnd failing.frameEnd)
    have crashed : failed.machine.crashed = true := crashed_of_step_fault failing.fails
    refine ⟨fun i before => (failing.goesOn i before).1, ?_, machine_of_step_fault failing.fails,
      fun accepts => frame_of_failsAt accepts failing, ?_, ?_⟩
    · rw [afterAll_steps]
    · intro timer unset
      rw [← machine]
      exact view_framed (Machine.timer · timer) (fun m => step_timer_of_deed) unset
    · intro ops pace' accepts later
      exact frame_of_crashed pace' accepts ((crashed_lasting s).of_afterAll pace ops crashed)
  · intro n f run
    refine ⟨run_fault_iff, ?_⟩
    intro k within failing frames before result
    obtain ⟨j, failsAt⟩ := (frame_fault_iff true).mp failing.fails
    have stopped : result.console = { before with machine := result.console.machine } := by
      unfold result
      rw [frame_of_failsAt true failsAt]
    have ended : run = _ := run_of_failsAfter within failing
    obtain ⟨counted, redrawn⟩ := counts_of_play failing.finished
    rw [ended]
    refine ⟨stopped, ?_, ?_, rfl, ?_⟩
    · exact (congrArg Console.frames stopped).trans counted
    · exact (congrArg Console.redraws stopped).trans redrawn
    · simp [Session.effects, frames, before, result]

/-- A console that clears the display twice and returns from nowhere. -/
def clearAndReturn : Console where
  machine := { Machine.empty with
    memory := Machine.empty.memory.write programStart
      [0x00, 0xE0, 0x60, 0x03, 0x00, 0xE0, 0x00, 0xEE] }
  speaker := .silent {}

/-- Two instructions a frame. -/
def slow : Pace := ⟨2, Nat.two_pos⟩

/-- The console after a frame that clears the display and loads a register. -/
def clearedAndLoaded : Console :=
  clearAndReturn.afterAll {} slow (schedule (List.replicate 1 []))

theorem failsAt_clearedAndLoaded :
    clearedAndLoaded.machine.FailsAt {} 2 1 (.stackUnderflow 0x206) where
  lt := by decide
  goesOn := by decide +kernel
  fails := by decide +kernel

theorem failsAfter_clearAndReturn :
    clearAndReturn.FailsAfter {} slow 1 (.stackUnderflow 0x206) where
  finished := by
    have endings : (clearAndReturn.play {} slow (List.replicate 1 [])).map
        (fun p => p.result.ending) = [.finished true] := by decide +kernel
    intro p mem
    have listed : p.result.ending ∈ [Ending.finished true] := endings ▸ List.mem_map_of_mem mem
    exact ⟨true, List.mem_singleton.mp listed⟩
  fails := by decide +kernel

theorem failed_frame_underflow :
    let last := clearedAndLoaded.machine.after {} 1
    let failed : Console := { clearedAndLoaded with machine := clearedAndLoaded.machine.after {} 2 }
    clearedAndLoaded.machine.FailsAt {} 2 1 (.stackUnderflow 0x206) ∧
      last.dirty = true ∧
      failed.machine = { last with pc := 0x208, crashed := true } ∧
      (clearedAndLoaded.frame {} slow true).console = failed ∧
      (∀ timer, (∀ deed ∈ clearedAndLoaded.frameDeeds {} slow,
          deed.instruction.sets timer = false) ∧
        failed.machine.timer timer = clearedAndLoaded.machine.timer timer) ∧
      ((1 : Nat) < (5 : Int) ∧
        clearAndReturn.FailsAfter {} slow 1 (.stackUnderflow 0x206) ∧
        (clearAndReturn.run {} slow 5).console.frames = clearAndReturn.frames + 1 ∧
        (clearAndReturn.run {} slow 5).console.redraws = clearAndReturn.redraws + 1) := by
  intro last failed
  obtain ⟨-, frame, -⟩ := failed_frame {} slow clearedAndLoaded
  obtain ⟨-, -, machine, result, timers, -⟩ := frame 1 _ failsAt_clearedAndLoaded
  obtain ⟨-, -, session⟩ := failed_frame {} slow clearAndReturn
  obtain ⟨-, frames, redraws, -⟩ := (session 5 _).2 1 (by decide) failsAfter_clearAndReturn
  have unset : ∀ timer, ∀ deed ∈ clearedAndLoaded.frameDeeds {} slow,
      deed.instruction.sets timer = false := by
    intro timer
    cases timer <;> decide +kernel
  have running : last.crashed = false := by decide +kernel
  have address : last.pc + 2 = 0x208 := by decide +kernel
  have shown : (clearAndReturn.play {} slow (List.replicate 1 [])).countP
      (·.result.ending = .finished true) = 1 := by decide +kernel
  refine ⟨failsAt_clearedAndLoaded, by decide +kernel, ?_, ?_,
    fun timer => ⟨unset timer, timers timer (unset timer)⟩, by decide, failsAfter_clearAndReturn,
    frames, ?_⟩
  · have whole : failed.machine = if last.crashed then last else
        { last with pc := last.pc + 2, crashed := true } := machine
    rw [whole, running, address]
    rfl
  · rw [result true]
  · rw [redraws, shown]

end Console

end Cosmac
