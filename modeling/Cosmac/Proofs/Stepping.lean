import Cosmac.Operation
import Cosmac.Proofs.Encoding

/-!
# What a step can do

The case distinctions that everything about runs is derived from. Carrying out a word either stops
the machine and changes nothing else, or performs the instruction that the word encodes
(`execute_cases`). A step does the same with the program counter moved on, unless the machine has
stopped already (`step_cases`). What an instruction can do to the stack is said once, in
`perform_stack`: a call puts the way back into the first free slot, a return takes it from the last
used one, and nothing else touches the stack or its depth.

`after` is the machine after a number of steps, whatever each of them came to.
-/

namespace Cosmac.Machine

/-- The program counter moves behind the instruction it points at. -/
def advance (m : Machine) : Machine :=
  { m with pc := m.pc + instructionSize }

/-- The address of the instruction that is being carried out, also across the end of memory. -/
theorem here_advance (m : Machine) : m.advance.here = m.pc :=
  BitVec.add_sub_cancel m.pc instructionSize

/-- To advance is to leave the place. -/
theorem pc_advance_ne (m : Machine) : m.advance.pc ≠ m.pc := by
  show m.pc + 2 ≠ m.pc
  bv_omega

/-- One more instruction was carried out. -/
def count (m : Machine) : Machine :=
  m.tally fun c => { c with instructions := c.instructions + 1 }

/-- The reply of a step to whose word the machine gave a reply. -/
def Reply.ofStep (traced : List Notice) (reply : Reply) : Reply :=
  match reply.fault? with
  | some f => ⟨reply.machine, traced ++ reply.notices, some f⟩
  | none => ⟨reply.machine.count, traced ++ reply.notices, none⟩

variable {s : Setup} {m next : Machine} {i : Instruction}

/-- **An instruction is given up before it has written anything.** A call and a return look at the
stack first. -/
theorem perform_refusal {r : Refusal Machine} (refused : m.perform s i = .error r) :
    r.machine = m := by
  cases i <;> simp only [perform, refuse] at refused <;> (try split at refused) <;>
    cases refused <;> rfl

/-- **A word is refused before anything is written**, at whichever place of whichever family. -/
theorem carryOut_refusal {w : Word} {r : Refusal Machine} (refused : m.carryOut s w = .error r) :
    r.machine = m := by
  rw [carryOut_eq] at refused
  cases decoded : Instruction.decode? w with
  | none =>
    rw [decoded] at refused
    cases refused
    rfl
  | some i =>
    rw [decoded] at refused
    exact perform_refusal refused

/-- **A word is refused or performed.** -/
theorem execute_cases (s : Setup) (m : Machine) (w : Word) :
    (∃ f, m.execute s w = m.stop f) ∨
      ∃ i next, Instruction.decode? w = some i ∧ m.perform s i = .ok next ∧
        m.execute s w = ⟨next, (m.selfJump? i).toList.map .selfJump, none⟩ := by
  rw [execute_eq]
  cases decoded : Instruction.decode? w with
  | none => exact .inl ⟨_, rfl⟩
  | some i =>
    cases performed : m.perform s i with
    | error r => exact .inl ⟨r.fault, by simp only [performed, perform_refusal performed]⟩
    | ok next => exact .inr ⟨i, next, rfl, performed, by simp only [performed]⟩

/-- The word of an instruction is carried out as that instruction. -/
theorem execute_encode (performed : m.perform s i = .ok next) :
    m.execute s i.encode = ⟨next, (m.selfJump? i).toList.map .selfJump, none⟩ := by
  simp only [execute_eq, Instruction.decode?_encode, performed]

/-- A step of a stopped machine reports that and does nothing. -/
theorem step_of_crashed (crashed : m.crashed = true) : m.step s = ⟨m, [], some .halted⟩ := by
  unfold step
  rw [if_pos crashed]

/-- A step of a running machine executes the next word with the program counter moved on. -/
theorem step_of_running (running : m.crashed = false) :
    m.step s = (m.advance.execute s m.word).ofStep (m.trace s) := by
  unfold step
  rw [if_neg (by simp [running])]
  rfl

/-- A step of a running machine fails exactly as its word does. -/
theorem fault?_step_of_running (running : m.crashed = false) :
    (m.step s).fault? = (m.advance.execute s m.word).fault? := by
  rw [step_of_running running, Reply.ofStep]
  split
  case h_1 failed => exact failed.symm
  case h_2 fine => exact fine.symm

/-- Setups that carry out the word at the program counter alike take the same step. -/
theorem step_congr {t : Setup} (traced : s.tracing = t.tracing)
    (same : m.crashed = false → m.advance.execute s m.word = m.advance.execute t m.word) :
    m.step s = m.step t := by
  cases crashed : m.crashed with
  | true => rw [step_of_crashed crashed, step_of_crashed crashed]
  | false =>
    rw [step_of_running crashed, step_of_running crashed, same crashed, trace, trace, traced]

/-- **A step is refused, stops the machine or performs an instruction.** -/
theorem step_cases (s : Setup) (m : Machine) :
    (m.crashed = true ∧ m.step s = ⟨m, [], some .halted⟩) ∨
      (m.crashed = false ∧ ∃ f, m.step s =
        ⟨{ m.advance with crashed := true }, m.trace s ++ [.fault f], some f⟩) ∨
      (m.crashed = false ∧ ∃ i next, Instruction.decode? m.word = some i ∧
        m.advance.perform s i = .ok next ∧ m.step s =
          ⟨next.count, m.trace s ++ (m.advance.selfJump? i).toList.map .selfJump, none⟩) := by
  cases crashed : m.crashed with
  | true => exact .inl ⟨rfl, step_of_crashed crashed⟩
  | false =>
    right
    rw [step_of_running crashed]
    obtain ⟨f, stopped⟩ | ⟨i, next, decoded, performed, done⟩ := execute_cases s m.advance m.word
    · rw [stopped]
      exact .inl ⟨rfl, f, rfl⟩
    · rw [done]
      exact .inr ⟨rfl, i, next, decoded, performed, rfl⟩

/-- No instruction stops the machine or starts it again. -/
theorem perform_crashed (performed : m.perform s i = .ok next) : next.crashed = m.crashed := by
  cases i <;> simp only [perform] at performed <;> (try split at performed) <;> cases performed <;>
    rfl

/-- **Calls and returns alone move the stack**, and only at its top. -/
theorem perform_stack (performed : m.perform s i = .ok next) :
    (∃ nnn, i = .call nnn ∧ m.sp < stackSize ∧ next.sp = m.sp + 1 ∧
        next.stack = m.stack.set (BitVec.ofNat 4 m.sp) m.pc) ∨
      (i = .ret ∧ m.sp = next.sp + 1 ∧ next.stack = m.stack ∧
        next.pc = m.stack[BitVec.ofNat 4 next.sp]) ∨
      ((∀ nnn, i ≠ .call nnn) ∧ i ≠ .ret ∧ next.sp = m.sp ∧ next.stack = m.stack) := by
  cases i with
  | call nnn =>
    simp only [perform] at performed
    split at performed
    · cases performed
    · cases performed
      exact .inl ⟨nnn, rfl, Nat.lt_of_not_le ‹_›, rfl, rfl⟩
  | ret =>
    simp only [perform] at performed
    split at performed
    · cases performed
    · cases performed
      refine .inr (.inl ⟨rfl, ?_, rfl, rfl⟩)
      simp only
      omega
  | _ =>
    right; right
    simp only [perform] at performed
    (try split at performed) <;> cases performed <;> simp [setReg, drawSprite]

/-! ## Steps one after another -/

/-- The machine after a number of steps, whatever each of them came to. -/
def after (s : Setup) (m : Machine) : Nat → Machine
  | 0 => m
  | n + 1 => ((m.after s n).step s).machine

/-- The first `n` steps meet no fault. -/
def Succeeds (s : Setup) (m : Machine) (n : Nat) : Prop :=
  ∀ j < n, ((m.after s j).step s).fault? = none

/-- A step that succeeds has decoded and carried out an instruction. -/
theorem step_of_success (done : (m.step s).fault? = none) :
    ∃ i next, Instruction.decode? m.word = some i ∧ m.advance.perform s i = .ok next ∧
      (m.step s).machine = next.count := by
  obtain ⟨-, halted⟩ | ⟨-, f, stopped⟩ | ⟨-, i, next, decoded, performed, same⟩ := step_cases s m
  · rw [halted] at done
    cases done
  · rw [stopped] at done
    cases done
  · exact ⟨i, next, decoded, performed, by rw [same]⟩

/-- The first of a number of steps can be taken on its own. -/
theorem after_succ (s : Setup) (m : Machine) (n : Nat) :
    m.after s (n + 1) = (m.step s).machine.after s n := by
  induction n with
  | zero => rfl
  | succ n ih => rw [after, ih, after]

end Cosmac.Machine
