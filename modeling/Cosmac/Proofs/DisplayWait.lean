import Cosmac.Machine.Program
import Cosmac.Proofs.FrameSteps

/-!
# Draws in a frame that waits for the display

In the dialects that wait for the display a frame ends with the first change of it. So a frame makes
at most one draw that can be seen, and this is its last instruction. A draw whose sprite covers no
cell changes nothing and does not end the frame: any number of those may come before.

`one_visible_draw` counts the draws of a frame with these in mind and says exactly when there is no
more than one; `not_one_draw` is a program that makes two.
-/

namespace Cosmac

/-- An instruction draws a sprite. -/
def Instruction.isDraw : Instruction → Bool
  | .draw _ _ _ => true
  | _ => false

namespace Machine

variable {s : Setup} {m next : Machine} {i : Instruction}

/-- Only a draw is counted as one. -/
theorem perform_draws (performed : m.perform s i = .ok next) :
    next.counters.draws = m.counters.draws + i.isDraw.toNat := by
  cases i with
  | draw x y n =>
    cases performed
    rfl
  | _ =>
    simp only [perform] at performed
    (try split at performed) <;> cases performed <;> rfl

/-- The next step draws a sprite. -/
def draws (s : Setup) (m : Machine) : Bool :=
  (m.upcoming? s).any Instruction.isDraw

/-- A step counts a draw exactly if it carries one out. -/
theorem step_draws (s : Setup) (m : Machine) :
    (m.step s).machine.counters.draws = m.counters.draws + (m.draws s).toNat := by
  unfold draws
  obtain ⟨idle, -, same | stopped⟩ | ⟨i, next, upcoming, -, performed, done⟩ := upcoming_cases s m
  · rw [idle, same]
    rfl
  · rw [idle, stopped]
    rfl
  · have counted : next.counters.draws = m.counters.draws + i.isDraw.toNat :=
      perform_draws (m := m.advance) performed
    rw [upcoming, done]
    exact counted

/-- The next step draws a sprite that covers a cell. -/
def drawsVisibly (s : Setup) (m : Machine) : Bool :=
  m.draws s && m.marks s

/-- Among the first `n` steps, how many start from a machine with a property. -/
def countSteps (s : Setup) (m : Machine) (P : Machine → Bool) (n : Nat) : Nat :=
  (List.range n).countP fun i => P (m.after s i)

/-- One step more counts if it starts from a machine with the property. -/
theorem countSteps_succ (s : Setup) (m : Machine) (P : Machine → Bool) (n : Nat) :
    m.countSteps s P (n + 1) = m.countSteps s P n + (P (m.after s n)).toNat := by
  unfold countSteps
  rw [List.range_succ, List.countP_append]
  cases h : P (m.after s n) <;> simp [h]

/-- Nothing is counted exactly if no step starts from such a machine. -/
theorem countSteps_eq_zero_iff {P : Machine → Bool} {n : Nat} :
    m.countSteps s P n = 0 ↔ ∀ i < n, P (m.after s i) = false := by
  simp [countSteps, List.countP_eq_zero]

/-- At most one step has a property if none that has it comes before another. -/
theorem countSteps_le_one_iff {P : Machine → Bool} {n : Nat} :
    m.countSteps s P n ≤ 1 ↔
      ∀ i k, i < k → k < n → P (m.after s i) = true → P (m.after s k) = false := by
  induction n with
  | zero => simp [countSteps]
  | succ n ih =>
    rw [countSteps_succ]
    cases last : P (m.after s n) with
    | false =>
      rw [Bool.toNat_false, Nat.add_zero, ih]
      constructor
      · intro apart i k before within first
        obtain within | rfl := Nat.lt_succ_iff_lt_or_eq.mp within
        · exact apart i k before within first
        · exact last
      · intro apart i k before within
        exact apart i k before (Nat.lt_succ_of_lt within)
    | true =>
      have alone : m.countSteps s P n + true.toNat ≤ 1 ↔ m.countSteps s P n = 0 := by
        rw [Bool.toNat_true]
        omega
      rw [alone, countSteps_eq_zero_iff]
      constructor
      · intro none i k before within first
        rw [none i (by omega)] at first
        cases first
      · intro apart i within
        cases first : P (m.after s i) with
        | false => rfl
        | true =>
          rw [apart i n within (Nat.lt_succ_self n) first] at last
          cases last

/-- **The counter of draws counts the steps that draw.** -/
theorem after_draws (s : Setup) (m : Machine) (n : Nat) :
    (m.after s n).counters.draws = m.counters.draws + m.countSteps s (draws s) n := by
  induction n with
  | zero => rfl
  | succ n ih => rw [after, step_draws, ih, countSteps_succ, Nat.add_assoc]

end Machine

namespace Console

open Machine

/-- What a frame does after its instructions is not counted. -/
theorem counters_frame (s : Setup) (pace : Pace) (accepts : Bool) (c : Console) :
    (c.frame s pace accepts).console.machine.counters = (c.framed s pace).machine.counters :=
  view_frame Machine.counters (fun _ => rfl) (fun _ => rfl) s pace accepts c

/-- **A frame that waits for the display makes one visible draw at most**, as its last instruction.
Its draws are counted, visible or not. There is more than one exactly if a draw whose sprite covers
no cell comes before another draw in the frame. -/
theorem one_visible_draw (s : Setup) (wait : s.dialect.displayWait = true) (pace : Pace)
    (accepts : Bool) (c : Console) :
    let m := c.machine
    let frame := (c.frame s pace accepts).console.machine
    ∃ n ≤ pace.instructions,
      frame.counters.draws = m.counters.draws + m.countSteps s (draws s) n ∧
      m.countSteps s (drawsVisibly s) n ≤ 1 ∧
      (∀ i, i + 1 < n → (m.after s i).drawsVisibly s = false) ∧
      (frame.counters.draws ≤ m.counters.draws + 1 ↔
        ¬ ∃ i k, i < k ∧ k < n ∧ (m.after s i).draws s = true ∧
          (m.after s i).drawsVisibly s = false ∧ (m.after s k).draws s = true) := by
  intro m frame
  obtain ⟨j, last, ran, -⟩ := Running.exists_frameEnd s pace.positive ⟨m, [], none⟩
  have stepped : (c.framed s pace).machine = m.after s (j + 1) := ran
  have counted : frame.counters.draws = m.counters.draws + m.countSteps s (draws s) (j + 1) := by
    rw [← after_draws, ← stepped, ← counters_frame s pace accepts c]
  -- a visible draw brings the mark up, so the frame does not go on after it
  have invisible : ∀ i, i + 1 < j + 1 → (m.after s i).drawsVisibly s = false := by
    intro i before
    rw [drawsVisibly, last.unmarked wait i (Nat.lt_of_succ_lt_succ before), Bool.and_false]
  refine ⟨j + 1, last.lt, counted, ?_, invisible, ?_⟩
  · rw [countSteps_le_one_iff]
    intro i k before within visible
    rw [invisible i (by omega)] at visible
    cases visible
  · rw [counted, Nat.add_le_add_iff_left, countSteps_le_one_iff]
    constructor
    · rintro apart ⟨i, k, before, within, drawn, -, again⟩
      rw [apart i k before within drawn] at again
      cases again
    · intro none i k before within drawn
      cases again : (m.after s k).draws s with
      | false => rfl
      | true =>
        exact absurd ⟨i, k, before, within, drawn, invisible i (by omega), again⟩ none

/-- A console that waits for the display, about to draw without a row again and again. -/
def blankDraws : Console where
  machine := { Machine.empty with memory := .fill 0xD0 }
  speaker := .silent {}

theorem one_visible_draw_blank :
    Setup.waiting.dialect.displayWait = true ∧
      (blankDraws.frame .waiting ⟨2, by decide⟩ true).console.machine.counters.draws = 2 ∧
      ∃ n ≤ 2,
        (blankDraws.frame .waiting ⟨2, by decide⟩ true).console.machine.counters.draws =
          blankDraws.machine.counters.draws +
            blankDraws.machine.countSteps .waiting (draws .waiting) n ∧
        blankDraws.machine.countSteps .waiting (drawsVisibly .waiting) n ≤ 1 := by
  have drawn : (blankDraws.frame .waiting ⟨2, by decide⟩ true).console.machine.counters.draws =
      2 := by decide +kernel
  obtain ⟨n, short, counted, visible, -⟩ :=
    one_visible_draw .waiting rfl ⟨2, by decide⟩ true blankDraws
  exact ⟨rfl, drawn, n, short, counted, visible⟩

/-- **A frame that waits for the display can make more than one draw.** The program draws a sprite
of no rows twice; nothing changes, and a frame of two instructions makes both. -/
theorem not_one_draw :
    ¬ ∀ (program : Program) (m : Machine) (size : Nat) (s : Setup) (pace : Pace)
        (speaker : Speaker), Machine.boot program = .ok (m, size) →
      s.dialect.displayWait = true →
        ((Console.mk m speaker 0 0).frame s pace true).console.machine.counters.draws ≤
          m.counters.draws + 1 := by
  intro one
  have booted : Machine.boot (.bytes [0xD0, 0x00, 0xD0, 0x00]) = .ok (_, 4) := rfl
  have few := one _ _ _ .waiting ⟨2, by decide⟩ (.silent {}) booted rfl
  revert few
  decide +kernel

end Console

end Cosmac
