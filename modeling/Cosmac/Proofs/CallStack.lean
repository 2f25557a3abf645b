import Cosmac.Proofs.Encoding
import Cosmac.Proofs.Stepping

/-!
# Calls and returns

A call leaves the address behind it in the first free stack slot. Nothing alters a slot that is in
use, so the address stays there while the stack is deeper than it was before the call. Only a return
makes the stack less deep, by one, and it goes to the address in the slot that it frees. Hence the
step that first brings the depth back is a return, and it goes to the instruction after the call,
whatever was called, jumped over, drawn or written in between. What returns have left above the
depth is never read again: a call that uses a slot anew writes it first.

`frame_of_step` is the invariant of one step, `frame_of_after` that of a run.
-/

namespace Cosmac.Machine

variable {s : Setup} {m next : Machine} {i : Instruction}

/-- Slots below the depth keep what they hold. -/
theorem stack_of_perform (performed : m.perform s i = .ok next) {k : Nat} (below : k < m.sp) :
    next.stack[BitVec.ofNat 4 k] = m.stack[BitVec.ofNat 4 k] := by
  obtain ⟨_, -, room, -, stack⟩ | ⟨-, -, stack, -⟩ | ⟨-, -, -, stack⟩ := perform_stack performed
  · rw [stack]
    apply Table.getElem_set_ne
    intro same
    have := congrArg BitVec.toNat same
    simp only [BitVec.toNat_ofNat, stackSize] at this room
    omega
  · rw [stack]
  · rw [stack]

/-- No word writes to a slot below the depth. -/
theorem stack_of_execute (w : Word) {k : Nat} (below : k < m.sp) :
    (m.execute s w).machine.stack[BitVec.ofNat 4 k] = m.stack[BitVec.ofNat 4 k] := by
  obtain ⟨f, stopped⟩ | ⟨i, next, -, performed, done⟩ := execute_cases s m w
  · rw [stopped]
    rfl
  · rw [done]
    exact stack_of_perform performed below

/-- A step above the depth `d`, where slot `d` holds the address `a`, either stays above it and
leaves the slot alone or is a return to `a`. -/
theorem frame_of_step {d : Nat} {a : Addr} (done : (m.step s).fault? = none)
    (deeper : d < m.sp) (saved : m.stack[BitVec.ofNat 4 d] = a) :
    (d < (m.step s).machine.sp ∧ (m.step s).machine.stack[BitVec.ofNat 4 d] = a) ∨
      (m.word = Instruction.ret.encode ∧ (m.step s).machine.sp = d ∧
        (m.step s).machine.pc = a) := by
  obtain ⟨i, next, decoded, performed, same⟩ := step_of_success done
  have kept : next.count.stack[BitVec.ofNat 4 d] = a :=
    (stack_of_perform performed deeper).trans saved
  have start : m.advance.sp = m.sp := rfl
  have stop : next.count.sp = next.sp := rfl
  rw [same]
  obtain ⟨_, -, -, up, -⟩ | ⟨rfl, down, -, target⟩ | ⟨-, -, level, -⟩ := perform_stack performed
  · exact .inl ⟨by omega, kept⟩
  · by_cases h : next.sp = d
    · -- the slot that this return frees is the one that holds the address
      rw [h] at target
      exact .inr ⟨Instruction.decode?_eq_some_iff.mp decoded, h, target.trans saved⟩
    · exact .inl ⟨by omega, kept⟩
  · exact .inl ⟨by omega, kept⟩

/-- A call raises the depth and leaves the address behind it in the slot of the old depth. -/
theorem frame_of_call {nnn : Addr} (call : m.word = (Instruction.call nnn).encode)
    (done : (m.step s).fault? = none) :
    m.sp < (m.step s).machine.sp ∧
      (m.step s).machine.stack[BitVec.ofNat 4 m.sp] = m.pc + instructionSize := by
  obtain ⟨i, next, decoded, performed, same⟩ := step_of_success done
  rw [call, Instruction.decode?_encode] at decoded
  cases decoded
  rw [same]
  obtain ⟨_, -, -, up, stack⟩ | ⟨ret, -⟩ | ⟨other, -⟩ := perform_stack performed
  · constructor
    · show m.sp < next.sp
      rw [up]
      exact Nat.lt_succ_self _
    · show next.stack[BitVec.ofNat 4 m.sp] = _
      rw [stack]
      exact Table.getElem_set_self _ _ _
  · cases ret
  · exact absurd rfl (other nnn)

/-- As long as the depth has not come back after a call, the stack is deeper than before it and the
slot of the old depth holds the address behind the call. -/
theorem frame_of_after {nnn : Addr} (call : m.word = (Instruction.call nnn).encode) (n : Nat)
    (done : m.Succeeds s (n + 1))
    (away : ∀ j, 0 < j → j ≤ n + 1 → (m.after s j).sp ≠ m.sp) :
    m.sp < (m.after s (n + 1)).sp ∧
      (m.after s (n + 1)).stack[BitVec.ofNat 4 m.sp] = m.pc + instructionSize := by
  induction n with
  | zero => exact frame_of_call call (done 0 (by omega))
  | succ n ih =>
    obtain ⟨deeper, saved⟩ :=
      ih (fun j hj => done j (by omega)) (fun j h0 hj => away j h0 (by omega))
    -- a return to the old depth would have brought it back
    obtain frame | ⟨-, level, -⟩ := frame_of_step (done (n + 1) (by omega)) deeper saved
    · exact frame
    · exact absurd level (away (n + 2) (by omega) (by omega))

/-- **A subroutine goes back to where it was called.** No word alters a stack slot in use. For a run
of steps without a fault that begins with a call, the slot of the old depth holds the address behind
the call as long as the stack is deeper, and the step that first brings the old depth back is a
return to that address. Addresses wrap, so the address behind a call at `0xFFE` is `0`. -/
theorem call_discipline (s : Setup) :
    (∀ (m : Machine) w, ∀ k < m.sp,
        (m.execute s w).machine.stack[BitVec.ofNat 4 k] = m.stack[BitVec.ofNat 4 k]) ∧
      ∀ (m : Machine) nnn, m.word = (Instruction.call nnn).encode → ∀ n, m.Succeeds s (n + 1) →
        ((∀ j, 0 < j → j ≤ n + 1 → m.sp < (m.after s j).sp) →
          (m.after s (n + 1)).stack[BitVec.ofNat 4 m.sp] = m.pc + 2) ∧
        ((∀ j, 0 < j → j ≤ n → (m.after s j).sp ≠ m.sp) → (m.after s (n + 1)).sp = m.sp →
          (m.after s n).word = Instruction.ret.encode ∧ (m.after s (n + 1)).pc = m.pc + 2) := by
  refine ⟨fun m w k below => stack_of_execute w below, ?_⟩
  intro m nnn call n done
  constructor
  · intro above
    exact (frame_of_after call n done fun j h0 hj => Nat.ne_of_gt (above j h0 hj)).2
  · intro away back
    cases n with
    | zero =>
      obtain ⟨deeper, -⟩ := frame_of_call call (done 0 (by omega))
      exact absurd back (Nat.ne_of_gt deeper)
    | succ n =>
      obtain ⟨deeper, saved⟩ := frame_of_after call n (fun j hj => done j (by omega)) away
      obtain ⟨above, -⟩ | ⟨ret, -, target⟩ := frame_of_step (done (n + 1) (by omega)) deeper saved
      · exact absurd back (Nat.ne_of_gt above)
      · exact ⟨ret, target⟩

/-- A machine whose next instruction is a call that wraps around the end of memory. The subroutine
at `0x300` calls one at `0x400`, which returns at once. -/
def nested : Machine :=
  { empty with
    memory := (((Table.fill 0).set 0xFFF 0x23).set 0x300 0x24).set 0x303 0xEE |>.set 0x401 0xEE
    pc := 0xFFF }

/-- In the subroutine, before it calls the other one. -/
def inner : Machine :=
  { nested with
    pc := 0x300
    sp := 1
    stack := nested.stack.set 0 1
    counters := { instructions := 1, calls := 1 } }

/-- In the other subroutine. -/
def innermost : Machine :=
  { inner with
    pc := 0x400
    sp := 2
    stack := inner.stack.set 1 0x302
    counters := { instructions := 2, calls := 2 } }

/-- Back in the subroutine. -/
def returning : Machine :=
  { innermost with
    pc := 0x302
    sp := 1
    counters := { instructions := 3, calls := 2, returns := 1 } }

theorem word_nested : nested.word = 0x2300 := by
  simp [nested, word, Table.getElem_set]

theorem step_nested : nested.step {} = ⟨inner, [], none⟩ := by
  rw [step_of_running rfl, word_nested]
  rfl

theorem step_inner : inner.step {} = ⟨innermost, [], none⟩ := by
  have fetched : inner.word = 0x2400 := by
    simp [inner, nested, word, Table.getElem_set]
  rw [step_of_running rfl, fetched]
  rfl

theorem step_innermost : innermost.step {} = ⟨returning, [], none⟩ := by
  have fetched : innermost.word = 0x00EE := by
    simp [innermost, inner, nested, word, Table.getElem_set]
  rw [step_of_running rfl, fetched]
  rfl

theorem step_returning :
    (returning.step {}).fault? = none ∧ (returning.step {}).machine.sp = 0 := by
  have fetched : returning.word = 0x00EE := by
    simp [returning, innermost, inner, nested, word, Table.getElem_set]
  rw [step_of_running rfl, fetched]
  exact ⟨rfl, rfl⟩

theorem after_nested :
    nested.after {} 1 = inner ∧ nested.after {} 2 = innermost ∧ nested.after {} 3 = returning := by
  have one : nested.after {} 1 = inner := by
    rw [after, after, step_nested]
  have two : nested.after {} 2 = innermost := by
    rw [after, one, step_inner]
  exact ⟨one, two, by rw [after, two, step_innermost]⟩

theorem call_discipline_nested :
    (inner.execute {} 0x2400).machine.stack[(0 : Nibble)] = inner.stack[(0 : Nibble)] ∧
      nested.Succeeds {} 4 ∧
      (nested.after {} 3).stack[BitVec.ofNat 4 nested.sp] = nested.pc + 2 ∧
      (nested.after {} 4).sp = nested.sp ∧
      (nested.after {} 3).word = Instruction.ret.encode ∧
      (nested.after {} 4).pc = nested.pc + 2 ∧ nested.pc + 2 = 1 := by
  obtain ⟨kept, law⟩ := call_discipline {}
  obtain ⟨one, two, three⟩ := after_nested
  have call : nested.word = (Instruction.call 0x300).encode := word_nested.trans rfl
  have done : nested.Succeeds {} 4 := by
    intro j hj
    match j, hj with
    | 0, _ => exact congrArg Reply.fault? step_nested
    | 1, _ => rw [one, step_inner]
    | 2, _ => rw [two, step_innermost]
    | 3, _ => rw [three]; exact step_returning.1
  have above : ∀ j, 0 < j → j ≤ 3 → nested.sp < (nested.after {} j).sp := by
    intro j h0 hj
    match j, h0, hj with
    | 1, _, _ => rw [one]; decide
    | 2, _, _ => rw [two]; decide
    | 3, _, _ => rw [three]; decide
  have back : (nested.after {} 4).sp = nested.sp := by
    rw [after, three]
    exact step_returning.2
  have saved := (law nested 0x300 call 2 fun j hj => done j (by omega)).1 above
  have returns := (law nested 0x300 call 3 done).2
  simp only [Nat.reduceAdd] at saved returns
  obtain ⟨ret, target⟩ := returns (fun j h0 hj => Nat.ne_of_gt (above j h0 hj)) back
  exact ⟨kept inner 0x2400 0 (by decide), done, saved, back, ret, target, rfl⟩

end Cosmac.Machine
