import Cosmac.Proofs.FrameSteps

/-!
# The mark about jumps

A machine remembers that it has reported a jump to its own address. The mark is there for that
report and bears on nothing else: a state, a reply or a result has a part `unwarned`, without the
mark and without these reports, and that part of what comes next depends on that part only. This is
shown of an instruction and carried on to a step, a frame and any sequence of operations
(`results_unwarned`).
-/

namespace Cosmac

namespace Machine

/-- The machine as if it had reported no jump. -/
def unwarned (m : Machine) : Machine :=
  { m with warned := false }

/-- The report is not about a jump. -/
def Notice.isPlain : Notice → Bool
  | selfJump _ => false
  | _ => true

/-- The reply without the mark and the report of a jump. -/
def Reply.unwarned (r : Reply) : Reply :=
  ⟨r.machine.unwarned, r.notices.filter Notice.isPlain, r.fault?⟩

/-- Machines that agree without the mark differ in the mark at most. -/
theorem eq_of_unwarned {m m' : Machine} (same : m'.unwarned = m.unwarned) :
    m' = { m with warned := m'.warned } := by
  cases m
  cases m'
  simpa [unwarned] using same

/-- **An instruction does not look at the mark.** -/
theorem perform_unwarned (s : Setup) (m : Machine) (i : Instruction) :
    (m.unwarned.perform s i).view unwarned = (m.perform s i).view unwarned := by
  cases i with
  | ret | call nnn =>
    simp only [perform]
    split <;> split <;> first | rfl | contradiction
  | skip c =>
    have held : m.unwarned.holds c = m.holds c := by cases c <;> rfl
    simp only [perform, held]
    split <;> rfl
  | awaitKey x =>
    have key : m.unwarned.lowestKey? = m.lowestKey? := rfl
    simp only [perform, key]
    split <;> rfl
  | _ => rfl

/-- The report of a jump is what is left out. -/
theorem filter_selfJump (m : Machine) (i : Instruction) :
    ((m.selfJump? i).toList.map Notice.selfJump).filter Notice.isPlain = [] := by
  cases m.selfJump? i <;> rfl

theorem unwarned_stop (m : Machine) (f : Fault) : (m.stop f).unwarned = m.unwarned.stop f := rfl

/-- The report in front of a reply is left out with the others. -/
theorem unwarned_ofStep (traced : List Notice) (r : Reply) :
    (r.ofStep traced).unwarned = r.unwarned.ofStep (traced.filter Notice.isPlain) := by
  obtain ⟨machine, notices, fault?⟩ := r
  cases fault? with
  | none => simp only [Reply.ofStep, Reply.unwarned, List.filter_append]; rfl
  | some f => simp only [Reply.ofStep, Reply.unwarned, List.filter_append]

/-- A word does not look at the mark. -/
theorem execute_unwarned (s : Setup) (m : Machine) (w : Word) :
    (m.unwarned.execute s w).unwarned = (m.execute s w).unwarned := by
  rw [execute_eq, execute_eq]
  cases Instruction.decode? w with
  | none => rfl
  | some i =>
    have same := perform_unwarned s m i
    cases done : m.perform s i <;> cases done' : m.unwarned.perform s i <;>
      rw [done, done'] at same <;> simp only [done, done']
    case error.error =>
      obtain ⟨fault, machine⟩ := Refusal.mk.inj (Except.error.inj same)
      rw [unwarned_stop, unwarned_stop, fault, machine]
    case ok.ok =>
      simp only [Reply.unwarned, filter_selfJump, Except.ok.inj same]
    all_goals cases same

/-- A step does not look at the mark. -/
theorem step_unwarned (s : Setup) (m : Machine) :
    (m.unwarned.step s).unwarned = (m.step s).unwarned := by
  cases crashed : m.crashed with
  | true =>
    have crashed' : m.unwarned.crashed = true := crashed
    rw [step_of_crashed crashed, step_of_crashed crashed']
    rfl
  | false =>
    have running : m.unwarned.crashed = false := crashed
    have same : (m.unwarned.advance.execute s m.unwarned.word).unwarned =
        (m.advance.execute s m.word).unwarned := execute_unwarned s m.advance m.word
    rw [step_of_running crashed, step_of_running running, unwarned_ofStep, unwarned_ofStep, same]
    rfl

end Machine

namespace Effect

/-- The effect is not the report of a jump. -/
def isPlain : Effect → Bool
  | notice (.machine n) => n.isPlain
  | _ => true

end Effect

namespace Console

open Machine

/-- The console whose machine has reported no jump. -/
def unwarned (c : Console) : Console :=
  { c with machine := c.machine.unwarned }

/-- The middle of a frame without the mark and the reports of jumps. -/
def Running.unwarned (r : Running) : Running :=
  ⟨r.machine.unwarned, r.reported.filter Machine.Notice.isPlain, r.fault?⟩

/-- What came of a frame, without the mark and the reports of jumps. -/
def FrameResult.unwarned (r : FrameResult) : FrameResult :=
  { r with console := r.console.unwarned, effects := r.effects.filter Effect.isPlain }

/-- A step of a run does not look at the mark. -/
theorem Running.step_unwarned (s : Setup) (r : Running) :
    (r.unwarned.step s).unwarned = (r.step s).unwarned := by
  obtain ⟨machine, notices, fault⟩ := Reply.mk.inj (Machine.step_unwarned s r.machine)
  have step : (r.unwarned.machine.step s) = r.machine.unwarned.step s := rfl
  simp only [Running.unwarned, Running.step, machine, fault, List.filter_append,
    List.filter_reverse, notices, List.filter_filter, Bool.and_self]

theorem Running.isOver_unwarned (s : Setup) (r : Running) : r.unwarned.isOver s = r.isOver s := rfl

/-- The steps of a run do not look at the mark, and end where they would without it. -/
theorem Running.steps_unwarned (s : Setup) (n : Nat) (r : Running) :
    (r.unwarned.steps s n).unwarned = (r.steps s n).unwarned := by
  -- on the number of instructions left
  induction n generalizing r with
  | zero => simp [Running.steps, Running.unwarned, Machine.unwarned]
  | succ n ih =>
    have next := Running.step_unwarned s r
    have ends : (r.unwarned.step s).isOver s = (r.step s).isOver s := by
      rw [← Running.isOver_unwarned, next, Running.isOver_unwarned]
    rw [Running.steps, Running.steps, ends]
    split
    · exact next
    · rw [← ih, next, ih]

/-- Leaving out the reports of a machine leaves out the effects they have. -/
theorem filter_ofMachine (notices : List Machine.Notice) :
    (notices.map Effect.ofMachine).filter Effect.isPlain =
      (notices.filter Machine.Notice.isPlain).map Effect.ofMachine := by
  rw [List.filter_map]
  rfl

/-- A frame does not look at the mark. -/
theorem frame_unwarned (s : Setup) (pace : Pace) (accepts : Bool) (c : Console) :
    (c.unwarned.frame s pace accepts).unwarned = (c.frame s pace accepts).unwarned := by
  have same := Running.steps_unwarned s pace.instructions ⟨c.machine, [], none⟩
  have start : Running.unwarned ⟨c.machine, [], none⟩ = ⟨c.unwarned.machine, [], none⟩ := rfl
  rw [start] at same
  simp only [frame]
  -- the rest of a frame looks at the end of its instructions only, and not at the mark there
  generalize Running.steps s ⟨c.machine, [], none⟩ pace.instructions = run at same ⊢
  generalize Running.steps s ⟨c.unwarned.machine, [], none⟩ pace.instructions = run' at same ⊢
  obtain ⟨m, reported, fault?⟩ := run
  obtain ⟨m', reported', fault?'⟩ := run'
  obtain ⟨machine, notices, rfl⟩ := Running.mk.inj same
  have reports : (reported'.map Effect.ofMachine).filter Effect.isPlain =
      (reported.map Effect.ofMachine).filter Effect.isPlain := by
    rw [filter_ofMachine, filter_ofMachine]
    exact congrArg (List.map Effect.ofMachine) notices
  have speaker : c.unwarned.speaker = c.speaker := rfl
  rw [eq_of_unwarned machine]
  cases fault?' with
  | some f =>
    simp only [FrameResult.unwarned, List.map_reverse, List.filter_reverse, reports]
    rfl
  | none =>
    cases dirty : m.dirty <;> cases accepts <;>
      simp [FrameResult.unwarned, reports, speaker, dirty, Machine.tickTimers] <;> rfl

/-- The mark is left out of a reply and of the console that takes it over. -/
theorem unwarned_withReply (c : Console) (r : Reply) :
    (c.withReply r).unwarned = c.unwarned.withReply r.unwarned := by
  simp only [withReply, FrameResult.unwarned, filter_ofMachine]
  rfl

/-- An operation does not look at the mark. -/
theorem operate_unwarned (s : Setup) (pace : Pace) (c : Console) (op : Operation) :
    (c.unwarned.operate s pace op).unwarned = (c.operate s pace op).unwarned := by
  cases op with
  | step =>
    have same : (c.unwarned.machine.step s).unwarned = _ := step_unwarned s c.machine
    rw [operate, operate, unwarned_withReply, unwarned_withReply, same]
    rfl
  | execute w =>
    have same : (c.unwarned.machine.execute s w).unwarned = _ := execute_unwarned s c.machine w
    rw [operate, operate, unwarned_withReply, unwarned_withReply, same]
    rfl
  | frame accepts => exact frame_unwarned s pace accepts c
  | _ => rfl

/-- What operations that are done one after another come to. -/
def results (s : Setup) (pace : Pace) (c : Console) : List Operation → List FrameResult
  | [] => []
  | op :: ops => c.operate s pace op :: (c.operate s pace op).console.results s pace ops

/-- **Operations do not look at the mark.** -/
theorem results_unwarned (s : Setup) (pace : Pace) (c : Console) (ops : List Operation) :
    (c.unwarned.results s pace ops).map FrameResult.unwarned =
      (c.results s pace ops).map FrameResult.unwarned := by
  induction ops generalizing c with
  | nil => rfl
  | cons op ops ih =>
    have first := operate_unwarned s pace c op
    have onward : (c.unwarned.operate s pace op).console.unwarned =
        (c.operate s pace op).console.unwarned := congrArg FrameResult.console first
    rw [results, results, List.map_cons, List.map_cons, first, ← ih, onward, ih]

end Console

end Cosmac
