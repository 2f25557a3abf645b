import Cosmac.Proofs.FrameSteps
import Cosmac.Proofs.Lasting
import Cosmac.Proofs.Marking

/-!
# No change of the display is missed

A screen is shown a picture at the end of a frame and may fail to take it. The console keeps one bit
about this, the mark that the display has changed. The invariant is that the mark is up or the
display is the picture that the screen took last (`InStep`): an instruction that touches the display
raises the mark, and the mark is taken down only right after the screen has taken the picture.
-/

namespace Cosmac

namespace Machine

/-- The display has been marked as changed, or it is the picture `shown`. -/
def InStep (shown : Display) (m : Machine) : Prop :=
  m.dirty = true ∨ m.display = shown

/-- Where the mark is down, the display is the one that was shown. -/
theorem InStep.display {m : Machine} {shown : Display} (inStep : m.InStep shown)
    (clean : m.dirty = false) : m.display = shown := by
  obtain dirty | same := inStep
  · rw [clean] at dirty
    cases dirty
  · exact same

/-- Steps keep a machine in step: whatever changes the display raises the mark. -/
theorem inStep_steady (s : Setup) (shown : Display) : Steady s (InStep shown) where
  stop := id
  advance := id
  perform := by
    intro m i next inStep performed
    have marked := perform_dirty performed
    cases touched : m.touches s.dialect i with
    | true =>
      left
      rw [marked, touched, Bool.or_true]
    | false =>
      rw [touched, Bool.or_false] at marked
      rw [InStep, marked, perform_display performed touched]
      exact inStep
  count := id

end Machine

namespace Console

open Machine

/-- The picture that the screen took. -/
def FrameResult.taken? (r : FrameResult) : Option Display :=
  if r.ending = .refused then none else r.picture?

/-- The picture that the screen took last in the course of some operations; `shown` is the one that
it took last before them. -/
def lastTaken (s : Setup) (pace : Pace) (shown : Display) (c : Console) :
    List Operation → Display
  | [] => shown
  | op :: ops =>
    let r := c.operate s pace op
    r.console.lastTaken s pace (r.taken?.getD shown) ops

variable {s : Setup} {pace : Pace} {c : Console} {shown : Display}

/-- A frame keeps the display and the screen in step, and if it ends in the regular way the mark is
down and the screen has taken a picture exactly if the frame says so. -/
theorem inStep_of_frame (accepts : Bool) (inStep : c.machine.InStep shown) :
    let r := c.frame s pace accepts
    r.console.machine.InStep (r.taken?.getD shown) ∧
      ∀ b, r.ending = .finished b → r.console.machine.dirty = false ∧ r.taken?.isSome = b := by
  have ran : (c.framed s pace).machine.InStep shown :=
    (inStep_steady s shown).of_steps pace.instructions inStep
  intro r
  obtain ⟨f, -, same⟩ | ⟨-, clean, same⟩ | ⟨-, dirty, -, same⟩ | ⟨-, dirty, -, same⟩ :=
    frame_cases s pace accepts c
  · have r_eq : r = _ := same
    rw [r_eq]
    exact ⟨ran, fun b finished => by cases finished⟩
  · have r_eq : r = _ := same
    rw [r_eq]
    refine ⟨ran, fun b finished => ?_⟩
    cases finished
    exact ⟨clean, rfl⟩
  · -- a refused picture leaves the mark up
    have r_eq : r = _ := same
    rw [r_eq]
    exact ⟨.inl dirty, fun b finished => by cases finished⟩
  · have r_eq : r = _ := same
    rw [r_eq]
    refine ⟨.inr rfl, fun b finished => ?_⟩
    cases finished
    exact ⟨rfl, rfl⟩

theorem taken?_withReply (c : Console) (r : Machine.Reply) : (c.withReply r).taken? = none :=
  ite_self none

/-- An operation keeps a machine in step with what the screen took last. -/
theorem inStep_of_operate (op : Operation) (unmarked : op ≠ .markShown)
    (inStep : c.machine.InStep shown) :
    let r := c.operate s pace op
    r.console.machine.InStep (r.taken?.getD shown) := by
  intro r
  cases op with
  | step =>
    have untaken : r.taken? = none := taken?_withReply c _
    rw [untaken]
    exact (inStep_steady s shown).of_step inStep
  | execute w =>
    have untaken : r.taken? = none := taken?_withReply c _
    rw [untaken]
    exact (inStep_steady s shown).of_execute w inStep
  | markShown => exact absurd rfl unmarked
  | frame accepts => exact (inStep_of_frame accepts inStep).1
  | _ => exact inStep

/-- Operations one after another keep a machine in step with what the screen took last. -/
theorem inStep_of_afterAll (ops : List Operation) (unmarked : .markShown ∉ ops)
    (inStep : c.machine.InStep shown) :
    (c.afterAll s pace ops).machine.InStep (c.lastTaken s pace shown ops) := by
  induction ops generalizing c shown with
  | nil => exact inStep
  | cons op ops ih =>
    have other : op ≠ .markShown := fun same => unmarked (same ▸ List.mem_cons_self)
    exact ih (fun mem => unmarked (List.mem_cons_of_mem _ mem)) (inStep_of_operate op other inStep)

/-- **No change of the display is missed.** Take the display of a console as the picture that the
screen took last. After any operations, in any order and whatever they came to, the display is the
picture that the screen took last whenever the mark is down. A frame that then ends in the regular
way leaves it so, and the screen took a picture in that frame exactly if the frame says that it was
shown. Only to take the mark down from outside would lose a change. -/
theorem display_lastTaken (s : Setup) (pace : Pace) (c : Console) (ops : List Operation)
    (unmarked : .markShown ∉ ops) :
    let last := c.afterAll s pace ops
    let taken := c.lastTaken s pace c.machine.display ops
    (last.machine.dirty = false → last.machine.display = taken) ∧
      ∀ accepts b, let r := last.frame s pace accepts
        r.ending = .finished b →
          r.console.machine.dirty = false ∧ r.console.machine.display = r.taken?.getD taken ∧
            r.taken?.isSome = b := by
  intro last taken
  have inStep : last.machine.InStep taken := inStep_of_afterAll ops unmarked (.inr rfl)
  refine ⟨inStep.display, ?_⟩
  intro accepts b r finished
  obtain ⟨still, regular⟩ := inStep_of_frame accepts inStep
  obtain ⟨clean, told⟩ := regular b finished
  exact ⟨clean, still.display clean, told⟩

end Console

/-- One instruction in each frame. -/
def Pace.single : Pace := ⟨1, Nat.one_pos⟩

namespace Console

/-- A console whose machine draws the same sprite again and again. -/
def painter : Console where
  machine := { Machine.empty with memory := .fill 0xD1 }
  speaker := .silent {}

/-- A change that the screen does not take. -/
def refusal : List Operation :=
  [.step, .setKey 3 true, .frame false]

theorem display_lastTaken_painter :
    (painter.afterAll {} .single refusal).machine.dirty = true ∧
      .markShown ∉ refusal ∧
      ((painter.afterAll {} .single refusal).frame {} .single true).ending = .finished true ∧
      ((painter.afterAll {} .single refusal).frame {} .single true).taken?.isSome = true ∧
      .markShown ∉ refusal ++ [.frame true] ∧
      (painter.afterAll {} .single (refusal ++ [.frame true])).machine.dirty = false ∧
      (painter.afterAll {} .single (refusal ++ [.frame true])).machine.display =
        painter.lastTaken {} .single painter.machine.display (refusal ++ [.frame true]) := by
  have dirty : (painter.afterAll {} .single refusal).machine.dirty = true := by decide +kernel
  have finished : ((painter.afterAll {} .single refusal).frame {} .single true).ending =
      .finished true := by decide +kernel
  have clean : (painter.afterAll {} .single (refusal ++ [.frame true])).machine.dirty =
      false := by decide +kernel
  have refused : .markShown ∉ refusal := by decide
  have taken : .markShown ∉ refusal ++ [.frame true] := by decide
  obtain ⟨-, regular⟩ := display_lastTaken {} .single painter refusal refused
  obtain ⟨inStep, -⟩ := display_lastTaken {} .single painter (refusal ++ [.frame true]) taken
  obtain ⟨-, -, told⟩ := regular true true finished
  exact ⟨dirty, refused, finished, told, taken, clean, inStep clean⟩

end Console

end Cosmac
