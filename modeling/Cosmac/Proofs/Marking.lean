import Cosmac.Proofs.Drawing
import Cosmac.Proofs.Stepping

/-!
# What marks the display as changed

An instruction touches the display if it clears it or draws a sprite that covers a cell. Such an
instruction raises the mark that the display has changed, and no instruction takes the mark away
(`perform_dirty`). An instruction that does not touch the display leaves it as it is
(`perform_display`), so a change never goes unmarked.

`upcoming?` is the instruction that the next step carries out, and `marks` says that it touches the
display.
-/

namespace Cosmac.Machine

/-- An instruction clears the display or draws a sprite that covers a cell. -/
def touches (d : Dialect) (m : Machine) : Instruction → Bool
  | .clear => true
  | .draw x y n => !(m.mask d x y n).isEmpty
  | _ => false

variable {s : Setup} {m next : Machine} {i : Instruction}

/-- A draw raises the mark if it covers a cell. -/
theorem dirty_drawSprite (d : Dialect) (m : Machine) (x y n : Nibble) :
    (m.drawSprite d x y n).dirty = (m.dirty || !(m.mask d x y n).isEmpty) := by
  rw [drawSprite_eq]

/-- A sprite that covers no cell leaves the display as it is. -/
theorem display_drawSprite_of_blank {d : Dialect} {x y n : Nibble} (blank : m.mask d x y n = []) :
    (m.drawSprite d x y n).display = m.display := by
  ext c
  have uncovered : ¬ m.Covers d x y n c := by
    rw [← mem_mask, blank]
    exact List.not_mem_nil
  rw [display_drawSprite, decide_eq_false uncovered, Bool.xor_false]

/-- **The mark is raised by a touch of the display** and by nothing else, and stays. -/
theorem perform_dirty (performed : m.perform s i = .ok next) :
    next.dirty = (m.dirty || m.touches s.dialect i) := by
  cases i with
  | draw x y n =>
    cases performed
    exact dirty_drawSprite s.dialect m x y n
  | _ =>
    simp only [perform] at performed
    (try split at performed) <;> cases performed <;> simp [touches, setReg]

/-- What does not touch the display leaves it as it is. -/
theorem perform_display (performed : m.perform s i = .ok next)
    (untouched : m.touches s.dialect i = false) : next.display = m.display := by
  cases i with
  | clear => cases untouched
  | draw x y n =>
    cases performed
    have blank : m.mask s.dialect x y n = [] := by
      simpa [touches] using untouched
    exact display_drawSprite_of_blank blank
  | _ =>
    simp only [perform] at performed
    (try split at performed) <;> cases performed <;> rfl

/-! ## Steps that touch the display -/

/-- The instruction that the next step carries out, unless the step meets a fault. -/
def upcoming? (s : Setup) (m : Machine) : Option Instruction :=
  if (m.step s).fault?.isNone then Instruction.decode? m.word else none

/-- The next step carries out an instruction that touches the display. -/
def marks (s : Setup) (m : Machine) : Bool :=
  (m.upcoming? s).any (m.touches s.dialect)

/-- **A step carries out the upcoming instruction**, or there is none and it stops the machine at
most. -/
theorem upcoming_cases (s : Setup) (m : Machine) :
    (m.upcoming? s = none ∧ (m.step s).fault? ≠ none ∧
        ((m.step s).machine = m ∨ (m.step s).machine = { m.advance with crashed := true })) ∨
      ∃ i next, m.upcoming? s = some i ∧ (m.step s).fault? = none ∧
        m.advance.perform s i = .ok next ∧ (m.step s).machine = next.count := by
  unfold upcoming?
  obtain ⟨-, halted⟩ | ⟨-, f, stopped⟩ | ⟨-, i, next, decoded, performed, done⟩ := step_cases s m
  · rw [halted]
    exact .inl ⟨rfl, by simp, .inl rfl⟩
  · rw [stopped]
    exact .inl ⟨rfl, by simp, .inr rfl⟩
  · rw [done]
    exact .inr ⟨i, next, decoded, rfl, performed, rfl⟩

/-- Whether the display is touched does not depend on the program counter. -/
theorem touches_advance (d : Dialect) (m : Machine) (i : Instruction) :
    m.advance.touches d i = m.touches d i := by
  cases i <;> rfl

/-- A step raises the mark if its instruction touches the display. -/
theorem step_dirty (s : Setup) (m : Machine) :
    (m.step s).machine.dirty = (m.dirty || m.marks s) := by
  unfold marks
  obtain ⟨idle, -, same | stopped⟩ | ⟨i, next, upcoming, -, performed, done⟩ := upcoming_cases s m
  · rw [idle, same]
    simp
  · rw [idle, stopped]
    simp [advance]
  · have marked : next.dirty = (m.dirty || m.advance.touches s.dialect i) :=
      perform_dirty (m := m.advance) performed
    rw [upcoming, done, Option.any_some, ← touches_advance]
    exact marked

/-- One of the first `n` steps touches the display. -/
def marksWithin (s : Setup) (m : Machine) (n : Nat) : Bool :=
  (List.range n).any fun i => (m.after s i).marks s

/-- **After a number of steps the mark is up** if it was before or one of them touched the
display. -/
theorem after_dirty (s : Setup) (m : Machine) (n : Nat) :
    (m.after s n).dirty = (m.dirty || m.marksWithin s n) := by
  induction n with
  | zero => simp [after, marksWithin]
  | succ n ih => simp [after, marksWithin, step_dirty, ih, List.range_succ, Bool.or_assoc]

end Cosmac.Machine
