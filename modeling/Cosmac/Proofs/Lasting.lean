import Cosmac.Proofs.Stepping

/-!
# Properties that last

A property of machines that every single change keeps is kept by whole runs. `Steady` lists what the
parts of a step do, and `Lasting` adds what can be done to a machine from outside. The lemmas go from
there to a word, a step, a frame, an operation and any sequence of operations, faults included.
-/

namespace Cosmac

/-- Whatever instructions a machine carries out that has the property, it keeps it. -/
structure Machine.Steady (s : Setup) (P : Machine → Prop) : Prop where
  stop : ∀ {m}, P m → P { m with crashed := true }
  advance : ∀ {m}, P m → P m.advance
  perform : ∀ {m i next}, P m → m.perform s i = .ok next → P next
  count : ∀ {m}, P m → P m.count

/-- Whatever happens to a machine that has the property, it keeps it. -/
structure Machine.Lasting (s : Setup) (P : Machine → Prop) : Prop extends Machine.Steady s P where
  setKey : ∀ {m} k down, P m → P (m.setKey k down)
  setDelay : ∀ {m} n, P m → P (m.setDelay n)
  setSound : ∀ {m} n, P m → P (m.setSound n)
  tickTimers : ∀ {m}, P m → P m.tickTimers
  markShown : ∀ {m}, P m → P m.markShown

namespace Machine.Steady

open Console

variable {s : Setup} {P : Machine → Prop} (steady : Steady s P)
include steady

/-- What lasts is kept by a word that is carried out or refused. -/
theorem of_execute {m : Machine} (w : Word) (h : P m) : P (m.execute s w).machine := by
  obtain ⟨f, stopped⟩ | ⟨i, next, -, performed, done⟩ := execute_cases s m w
  · rw [stopped]
    exact steady.stop h
  · rw [done]
    exact steady.perform h performed

/-- What lasts is kept by a step. -/
theorem of_step {m : Machine} (h : P m) : P (m.step s).machine := by
  obtain ⟨-, halted⟩ | ⟨-, f, stopped⟩ | ⟨-, i, next, -, performed, done⟩ := step_cases s m
  · rw [halted]
    exact h
  · rw [stopped]
    exact steady.stop (steady.advance h)
  · rw [done]
    exact steady.count (steady.perform (steady.advance h) performed)

/-- What lasts is kept by the steps of a frame. -/
theorem of_steps (n : Nat) {r : Running} (h : P r.machine) : P (r.steps s n).machine := by
  induction n generalizing r with
  | zero => exact h
  | succ n ih =>
    have next : P (r.step s).machine := steady.of_step h
    rw [Running.steps]
    split
    · exact next
    · exact ih next

end Machine.Steady

namespace Machine.Lasting

open Console

variable {s : Setup} {P : Machine → Prop} (lasting : Lasting s P)
include lasting

/-- What lasts is kept by a frame, whether or not the screen takes the picture. -/
theorem of_frame (pace : Pace) (accepts : Bool) {c : Console} (h : P c.machine) :
    P (c.frame s pace accepts).console.machine := by
  have run : P (Running.steps s ⟨c.machine, [], none⟩ pace.instructions).machine :=
    lasting.of_steps pace.instructions h
  have ticked := lasting.tickTimers run
  simp only [frame]
  split
  · exact run
  · split
    · exact ticked
    · split
      · exact ticked
      · exact lasting.markShown ticked

/-- What lasts is kept by every operation. -/
theorem of_operate (pace : Pace) {c : Console} (op : Operation) (h : P c.machine) :
    P (c.operate s pace op).console.machine := by
  cases op with
  | step => exact lasting.of_step h
  | execute w => exact lasting.of_execute w h
  | setKey k down => exact lasting.setKey k down h
  | setDelay n => exact lasting.setDelay n h
  | setSound n => exact lasting.setSound n h
  | tickTimers => exact lasting.tickTimers h
  | markShown => exact lasting.markShown h
  | frame accepts => exact lasting.of_frame pace accepts h

/-- **What lasts, lasts through every sequence of operations.** -/
theorem of_afterAll (pace : Pace) (ops : List Operation) {c : Console} (h : P c.machine) :
    P (c.afterAll s pace ops).machine := by
  induction ops generalizing c with
  | nil => exact h
  | cons op ops ih => exact ih (lasting.of_operate pace op h)

end Machine.Lasting

end Cosmac
