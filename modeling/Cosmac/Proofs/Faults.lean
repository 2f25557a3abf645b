import Cosmac.Proofs.Lasting

/-!
# Faults are atomic and final

A fault leaves no half-done instruction behind. A refusal comes with the machine as it stood when the
fault was met, and at none of the places where a word can be refused has anything been written
before (`carryOut_refusal`). So a refused word changes nothing but the mark that the machine has
stopped; when the word was fetched by a step, the program counter has moved on as well, and the
instruction is not counted.

The mark is there to stay, since no operation takes it away. From the first fault on every step is
refused and changes nothing, so steps can be struck out of any sequence of operations that follows.
-/

namespace Cosmac

open Machine

namespace Machine

variable {s : Setup} {m : Machine} {f : Fault}

/-- A word that fails leaves the machine as it is, stopped. -/
theorem machine_of_execute_fault {w : Word} (fault : (m.execute s w).fault? = some f) :
    (m.execute s w).machine = { m with crashed := true } := by
  obtain ⟨f, stopped⟩ | ⟨i, next, -, -, done⟩ := execute_cases s m w
  · rw [stopped]
    rfl
  · rw [done] at fault
    cases fault

/-- A step that fails has moved the program counter on, unless the machine had stopped before. -/
theorem machine_of_step_fault (fault : (m.step s).fault? = some f) :
    (m.step s).machine = if m.crashed then m else { m with pc := m.pc + 2, crashed := true } := by
  obtain ⟨crashed, halted⟩ | ⟨running, f, stopped⟩ | ⟨-, i, next, -, -, done⟩ := step_cases s m
  · rw [halted, crashed]
    rfl
  · rw [stopped, running]
    rfl
  · rw [done] at fault
    cases fault

/-- A step that fails leaves a stopped machine. -/
theorem crashed_of_step_fault (fault : (m.step s).fault? = some f) :
    (m.step s).machine.crashed = true := by
  rw [machine_of_step_fault fault]
  split
  · assumption
  · rfl

/-- A machine that has stopped stays stopped. -/
theorem crashed_lasting (s : Setup) : Lasting s fun m => m.crashed = true where
  stop := fun _ => rfl
  advance := id
  perform := fun h performed => (perform_crashed performed).trans h
  count := id
  setKey := fun _ _ => id
  setDelay := fun _ => id
  setSound := fun _ => id
  tickTimers := id
  markShown := id

end Machine

namespace Console

variable {s : Setup} (pace : Pace) {c : Console} {f : Fault}

/-! ## What ends with a fault leaves a stopped machine -/

/-- Steps that end with a fault leave a stopped machine. -/
theorem crashed_of_steps_fault (n : Nat) {r : Running}
    (h : r.fault?.isSome → r.machine.crashed = true) :
    (r.steps s n).fault?.isSome → (r.steps s n).machine.crashed = true := by
  induction n generalizing r with
  | zero => exact h
  | succ n ih =>
    have next : (r.step s).fault?.isSome → (r.step s).machine.crashed = true := by
      intro some
      obtain ⟨f, fault⟩ := Option.isSome_iff_exists.mp some
      exact crashed_of_step_fault fault
    rw [Running.steps]
    split
    · exact next
    · exact ih next

/-- A frame that ends with a fault leaves a stopped machine. -/
theorem crashed_of_frame_fault {accepts : Bool}
    (fault : (c.frame s pace accepts).ending = .fault f) :
    (c.frame s pace accepts).console.machine.crashed = true := by
  have run : (Running.steps s ⟨c.machine, [], none⟩ pace.instructions).fault?.isSome → _ :=
    crashed_of_steps_fault pace.instructions (by simp)
  simp only [frame] at fault ⊢
  split
  case h_1 f failed =>
    exact run (by simp [failed])
  case h_2 done =>
    simp only [done] at fault
    split at fault
    · cases fault
    · split at fault <;> cases fault

/-- An operation that ends with a fault leaves a stopped machine. -/
theorem crashed_of_operate_fault {op : Operation}
    (fault : (c.operate s pace op).ending = .fault f) :
    (c.operate s pace op).console.machine.crashed = true := by
  cases op with
  | step =>
    simp only [operate, withReply] at fault ⊢
    split at fault
    case h_1 failed => exact crashed_of_step_fault failed
    case h_2 => cases fault
  | execute w =>
    simp only [operate, withReply] at fault ⊢
    split at fault
    case h_1 failed => rw [machine_of_execute_fault failed]
    case h_2 => cases fault
  | frame accepts => exact crashed_of_frame_fault pace fault
  | _ => cases fault

/-! ## A stopped machine refuses every step -/

/-- A step of a stopped machine fails for that reason and changes nothing. -/
theorem operate_step_of_crashed (crashed : c.machine.crashed = true) :
    c.operate s pace .step = ⟨c, [], none, .fault .halted⟩ := by
  simp only [operate, step_of_crashed crashed]
  rfl

/-- To a stopped machine steps make no difference. -/
theorem afterAll_without_steps (ops : List Operation) (crashed : c.machine.crashed = true) :
    c.afterAll s pace (ops.filter (· ≠ .step)) = c.afterAll s pace ops := by
  induction ops generalizing c with
  | nil => rfl
  | cons op ops ih =>
    have next := (crashed_lasting s).of_operate pace op crashed
    by_cases h : op = .step
    · -- the step that is struck out changes nothing
      subst h
      have same : (c.operate s pace .step).console = c := by
        rw [operate_step_of_crashed pace crashed]
      rw [List.filter_cons_of_neg (by simp), afterAll_cons, same]
      exact ih crashed
    · rw [List.filter_cons_of_pos (by simp [h]), afterAll_cons, afterAll_cons]
      exact ih next

/-- **A fault changes nothing but the mark and is final.** The first part looks at the machine at the
moment when a word is refused; the next two say what a refused word and a failed step leave behind;
a step of a machine that had stopped before leaves everything. The last part is about whatever is
done after an operation that ended with a fault, in any order and including more words, frames and
steps. -/
theorem fault_is_final (s : Setup) (c : Console) :
    (∀ w r, c.machine.carryOut s w = .error r → r.machine = c.machine) ∧
      (∀ w f, (c.machine.execute s w).fault? = some f →
        (c.machine.execute s w).machine = { c.machine with crashed := true }) ∧
      (∀ f, (c.machine.step s).fault? = some f →
        (c.machine.step s).machine =
          if c.machine.crashed then c.machine
          else { c.machine with pc := c.machine.pc + 2, crashed := true }) ∧
      ∀ op f, (c.operate s pace op).ending = .fault f → ∀ ops : List Operation,
        let last := (c.operate s pace op).console.afterAll s pace ops
        last.machine.crashed = true ∧
          last.operate s pace .step = ⟨last, [], none, .fault .halted⟩ ∧
          last = (c.operate s pace op).console.afterAll s pace (ops.filter (· ≠ .step)) := by
  refine ⟨fun _ _ => carryOut_refusal, fun _ _ => machine_of_execute_fault,
    fun _ => machine_of_step_fault, ?_⟩
  intro op f fault ops last
  have crashed := crashed_of_operate_fault pace fault
  have still := (crashed_lasting s).of_afterAll pace ops crashed
  exact ⟨still, operate_step_of_crashed pace still, (afterAll_without_steps pace ops crashed).symm⟩

/-- A console whose machine is about to fetch a word across the end of memory that is no
instruction. -/
def stray : Console where
  machine := { Machine.empty with memory := .fill 0xFF, pc := 0xFFF }
  speaker := .silent {}

/-- The word is refused where it stands, with nothing written. -/
theorem carryOut_stray :
    stray.machine.carryOut {} 0xFFFF = .error ⟨.unknown 0xFFFF 0xFFD, stray.machine⟩ :=
  rfl

theorem execute_stray : (stray.machine.execute {} 0xFFFF).fault? = some (.unknown 0xFFFF 0xFFD) :=
  rfl

theorem step_stray : (stray.machine.step {}).fault? = some (.unknown 0xFFFF 0xFFF) := by
  have word : stray.machine.word = 0xFFFF := by
    simp [stray, Machine.word]
  rw [step_of_running rfl, word]
  rfl

theorem fault_is_final_stray :
    (∃ r, stray.machine.carryOut {} 0xFFFF = .error r ∧ r.machine = stray.machine) ∧
      ((stray.machine.execute {} 0xFFFF).fault? = some (.unknown 0xFFFF 0xFFD) ∧
        (stray.machine.execute {} 0xFFFF).machine = { stray.machine with crashed := true }) ∧
      ((stray.machine.step {}).fault? = some (.unknown 0xFFFF 0xFFF) ∧
        (stray.machine.step {}).machine = { stray.machine with pc := 1, crashed := true }) ∧
      (stray.operate {} .standard .step).ending = .fault (.unknown 0xFFFF 0xFFF) ∧
        ((stray.operate {} .standard .step).console.afterAll {} .standard
          [.setKey 3 true, .step, .tickTimers]).machine.crashed = true := by
  have law := fault_is_final .standard {} stray
  have fault : (stray.operate {} .standard .step).ending = .fault (.unknown 0xFFFF 0xFFF) := by
    simp only [operate, withReply, step_stray]
  exact ⟨⟨_, carryOut_stray, law.1 _ _ carryOut_stray⟩,
    ⟨execute_stray, law.2.1 _ _ execute_stray⟩, ⟨step_stray, law.2.2.1 _ step_stray⟩, fault,
    (law.2.2.2 _ _ fault _).1⟩

end Console

end Cosmac
