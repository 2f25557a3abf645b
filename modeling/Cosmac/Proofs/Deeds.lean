import Cosmac.Operation
import Cosmac.Proofs.FrameSteps
import Cosmac.Proofs.Lasting

/-!
# What is carried out

A deed is an instruction together with the machine that carries it out. A word that is refused and a
step that meets a fault are no deeds. `deeds` lists the deeds of operations in their order, and what
is said about runs is said about their deeds: `Running.view_steps` is the rule that a frame keeps
whatever none of its deeds changes.
-/

namespace Cosmac

/-- The two timers of a machine. -/
inductive Timer where
  | delay
  | sound
  deriving DecidableEq, Repr

/-- How long a timer still runs. -/
def Machine.timer (m : Machine) : Timer → Byte
  | .delay => m.delay
  | .sound => m.sound

/-- The instruction sets the timer. -/
def Instruction.sets : Instruction → Timer → Bool
  | .setDelay _, .delay => true
  | .setSound _, .sound => true
  | _, _ => false

namespace Machine

/-- An instruction and the machine that carries it out. -/
structure Deed where
  machine : Machine
  instruction : Instruction

/-- The deed touches the display. -/
def Deed.touches (d : Dialect) (deed : Deed) : Bool :=
  deed.machine.touches d deed.instruction

/-- The deed of the next step. -/
def deed? (s : Setup) (m : Machine) : Option Deed :=
  (m.upcoming? s).map (Deed.mk m)

/-- The deed of a word that is carried out on its own. -/
def deedOf? (s : Setup) (m : Machine) (w : Word) : Option Deed :=
  if (m.execute s w).fault?.isNone then (Instruction.decode? w).map (Deed.mk m) else none

variable {s : Setup} {m next : Machine} {i : Instruction}

/-- **A step does its deed**, or it has none and stops the machine at most. -/
theorem deed_cases (s : Setup) (m : Machine) :
    (m.deed? s = none ∧ (m.step s).fault? ≠ none ∧
        ((m.step s).machine = m ∨ (m.step s).machine = { m.advance with crashed := true })) ∨
      ∃ i next, m.deed? s = some ⟨m, i⟩ ∧ (m.step s).fault? = none ∧
        m.advance.perform s i = .ok next ∧ (m.step s).machine = next.count := by
  obtain ⟨idle, rest⟩ | ⟨i, next, upcoming, rest⟩ := upcoming_cases s m
  · exact .inl ⟨congrArg (Option.map (Deed.mk m)) idle, rest⟩
  · exact .inr ⟨i, next, congrArg (Option.map (Deed.mk m)) upcoming, rest⟩

/-- A word that is carried out does its deed, or it stops the machine. -/
theorem deedOf_cases (s : Setup) (m : Machine) (w : Word) :
    (m.execute s w).machine = { m with crashed := true } ∨
      ∃ i next, m.deedOf? s w = some ⟨m, i⟩ ∧ m.perform s i = .ok next ∧
        (m.execute s w).machine = next := by
  obtain ⟨f, stopped⟩ | ⟨i, next, decoded, performed, done⟩ := execute_cases s m w
  · exact .inl (by rw [stopped]; rfl)
  · refine .inr ⟨i, next, ?_, performed, by rw [done]⟩
    rw [deedOf?, done, decoded]
    rfl

/-- A step that does a deed meets no fault. -/
theorem fault?_of_deed {deed : Deed} (does : m.deed? s = some deed) : (m.step s).fault? = none := by
  obtain ⟨idle, -⟩ | ⟨-, -, -, fine, -⟩ := deed_cases s m
  · rw [idle] at does
    cases does
  · exact fine

/-- A deed remembers the machine whose step does it. -/
theorem machine_of_deed? {deed : Deed} (done : deed ∈ m.deed? s) : deed.machine = m := by
  obtain ⟨i, -, rfl⟩ := Option.map_eq_some_iff.mp done
  rfl

/-- A deed remembers the machine that carries out its word. -/
theorem machine_of_deedOf? {deed : Deed} {w : Word} (done : deed ∈ m.deedOf? s w) :
    deed.machine = m := by
  obtain ⟨-, done⟩ := Option.ite_none_right_eq_some.mp done
  obtain ⟨i, -, rfl⟩ := Option.map_eq_some_iff.mp done
  rfl

/-- What a step does is the deed of the machine that takes it. -/
theorem deed?_of_mem {deed : Deed} (done : deed ∈ m.deed? s) :
    deed.machine.deed? s = some deed := by
  rw [machine_of_deed? done]
  exact done

/-- A step whose deed does not touch the display leaves the mark. -/
theorem step_dirty_of_deed (untouched : ∀ deed ∈ m.deed? s, deed.touches s.dialect = false) :
    (m.step s).machine.dirty = m.dirty := by
  have unmarked : m.marks s = false := by
    unfold marks
    cases upcoming : m.upcoming? s with
    | none => rfl
    | some i => exact untouched ⟨m, i⟩ (by rw [deed?, upcoming]; rfl)
  rw [step_dirty, unmarked, Bool.or_false]

/-- A word whose deed does not touch the display leaves the mark. -/
theorem execute_dirty_of_deed {w : Word}
    (untouched : ∀ deed ∈ m.deedOf? s w, deed.touches s.dialect = false) :
    (m.execute s w).machine.dirty = m.dirty := by
  obtain same | ⟨i, next, deed, performed, same⟩ := deedOf_cases s m w
  · rw [same]
  · have unmarked : m.touches s.dialect i = false := untouched ⟨m, i⟩ deed
    rw [same, perform_dirty performed, unmarked, Bool.or_false]

/-- Only the instruction that sets a timer changes it. -/
theorem perform_timer {timer : Timer} (performed : m.perform s i = .ok next)
    (unset : i.sets timer = false) : next.timer timer = m.timer timer := by
  cases i with
  | setDelay x | setSound x =>
    cases performed
    cases timer <;> first | rfl | cases unset
  | _ =>
    simp only [perform] at performed
    (try split at performed) <;> cases performed <;> cases timer <;> rfl

/-- A step changes no timer that its deed does not set. -/
theorem step_timer_of_deed {timer : Timer}
    (unset : ∀ deed ∈ m.deed? s, deed.instruction.sets timer = false) :
    (m.step s).machine.timer timer = m.timer timer := by
  obtain ⟨-, -, same | same⟩ | ⟨i, next, deed, -, performed, same⟩ := deed_cases s m
  · rw [same]
  · rw [same]
    cases timer <;> rfl
  · have kept : next.timer timer = m.advance.timer timer :=
      perform_timer performed (unset _ deed)
    rw [same]
    cases timer <;> exact kept

/-- A word changes no timer that its deed does not set. -/
theorem execute_timer_of_deed {timer : Timer} {w : Word}
    (unset : ∀ deed ∈ m.deedOf? s w, deed.instruction.sets timer = false) :
    (m.execute s w).machine.timer timer = m.timer timer := by
  obtain same | ⟨i, next, deed, performed, same⟩ := deedOf_cases s m w
  · rw [same]
    cases timer <;> rfl
  · rw [same, perform_timer performed (unset _ deed)]

end Machine

namespace Console

open Machine

/-- The deeds of at most `n` more instructions of a frame, in order. -/
def Running.deeds (s : Setup) (r : Running) : Nat → List Deed
  | 0 => []
  | n + 1 =>
    let next := r.step s
    (r.machine.deed? s).toList ++ if next.isOver s then [] else next.deeds s n

/-- The deeds of the next frame, in order. -/
def frameDeeds (s : Setup) (pace : Pace) (c : Console) : List Deed :=
  Running.deeds s ⟨c.machine, [], none⟩ pace.instructions

/-- The deeds of one operation, in order. -/
def deedsOf (s : Setup) (pace : Pace) (c : Console) : Operation → List Deed
  | .step => (c.machine.deed? s).toList
  | .execute w => (c.machine.deedOf? s w).toList
  | .frame _ => c.frameDeeds s pace
  | _ => []

/-- The deeds of operations that are done one after another, in order. -/
def deeds (s : Setup) (pace : Pace) (c : Console) : List Operation → List Deed
  | [] => []
  | op :: ops => c.deedsOf s pace op ++ (c.operate s pace op).console.deeds s pace ops

variable {s : Setup} {pace : Pace} {c : Console}

/-- The deeds of two stretches of operations follow each other. -/
theorem deeds_append (s : Setup) (pace : Pace) (c : Console) (first last : List Operation) :
    c.deeds s pace (first ++ last) =
      c.deeds s pace first ++ (c.afterAll s pace first).deeds s pace last := by
  induction first generalizing c with
  | nil => rfl
  | cons op first ih =>
    rw [List.cons_append, deeds, deeds, ih, List.append_assoc]
    rfl

/-- What holds of all deeds holds of those of the first operation and of those after it. -/
theorem forall_deeds_cons {P : Deed → Prop} {op : Operation} {ops : List Operation} :
    (∀ deed ∈ c.deeds s pace (op :: ops), P deed) ↔
      (∀ deed ∈ c.deedsOf s pace op, P deed) ∧
        ∀ deed ∈ (c.operate s pace op).console.deeds s pace ops, P deed :=
  List.forall_mem_append

/-- What holds of all deeds holds of both stretches. -/
theorem forall_deeds_append {P : Deed → Prop} {first last : List Operation} :
    (∀ deed ∈ c.deeds s pace (first ++ last), P deed) ↔
      (∀ deed ∈ c.deeds s pace first, P deed) ∧
        ∀ deed ∈ (c.afterAll s pace first).deeds s pace last, P deed := by
  rw [deeds_append]
  exact List.forall_mem_append

section Running

variable {r : Running} {n : Nat} {P : Deed → Prop}

/-- The deed of the first step is among the deeds of a run. -/
theorem Running.first_of_deeds (all : ∀ deed ∈ r.deeds s (n + 1), P deed) :
    ∀ deed ∈ r.machine.deed? s, P deed := by
  intro deed done
  exact all deed (List.mem_append_left _ (by simpa using done))

/-- Where a run goes on, the deeds of the rest are among its own. -/
theorem Running.rest_of_deeds (all : ∀ deed ∈ r.deeds s (n + 1), P deed)
    (going : ¬ (r.step s).isOver s = true) : ∀ deed ∈ (r.step s).deeds s n, P deed := by
  intro deed done
  refine all deed ?_
  rw [Running.deeds, if_neg going]
  exact List.mem_append_right _ done

/-- **What no deed changes is the same after the instructions of a frame**, faults included. -/
theorem Running.view_steps {α : Type} (view : Machine → α)
    (keeps : ∀ m : Machine, (∀ deed ∈ m.deed? s, P deed) → view (m.step s).machine = view m)
    (all : ∀ deed ∈ r.deeds s n, P deed) : view (r.steps s n).machine = view r.machine := by
  induction n generalizing r with
  | zero => rfl
  | succ n ih =>
    have first : view (r.step s).machine = view r.machine :=
      keeps r.machine (first_of_deeds all)
    rw [Running.steps]
    split
    case isTrue => exact first
    case isFalse going => exact (ih (rest_of_deeds all going)).trans first

/-- Every deed of a run is that of a step. -/
theorem Running.deed?_of_deeds (n : Nat) (r : Running) :
    ∀ deed ∈ r.deeds s n, deed.machine.deed? s = some deed := by
  induction n generalizing r with
  | zero => exact List.forall_mem_nil _
  | succ n ih =>
    rw [Running.deeds, List.forall_mem_append]
    refine ⟨fun deed done => deed?_of_mem (Option.mem_toList.mp done), ?_⟩
    split
    · exact List.forall_mem_nil _
    · exact ih (r.step s)

end Running

/-- **Unless words are carried out from outside, every deed is that of a step.** -/
theorem deed?_of_deeds {ops : List Operation} (stepped : ∀ w, .execute w ∉ ops) :
    ∀ deed ∈ c.deeds s pace ops, deed.machine.deed? s = some deed := by
  induction ops generalizing c with
  | nil => exact List.forall_mem_nil _
  | cons op ops ih =>
    refine forall_deeds_cons.mpr ⟨?_, ih fun w mem => stepped w (List.mem_cons_of_mem op mem)⟩
    cases op with
    | step => exact fun deed done => deed?_of_mem (Option.mem_toList.mp done)
    | execute w => exact absurd List.mem_cons_self (stepped w)
    | frame accepts => exact Running.deed?_of_deeds pace.instructions _
    | _ => exact List.forall_mem_nil _

section Lasting

variable {P : Machine → Prop}

/-- What steps preserve holds of the machine of every deed. -/
theorem Running.forall_deeds (steady : Steady s P) (n : Nat) {r : Running} (h : P r.machine) :
    ∀ deed ∈ r.deeds s n, P deed.machine := by
  induction n generalizing r with
  | zero => exact List.forall_mem_nil _
  | succ n ih =>
    rw [Running.deeds, List.forall_mem_append]
    constructor
    · intro deed done
      rw [machine_of_deed? (Option.mem_toList.mp done)]
      exact h
    · split
      · exact List.forall_mem_nil _
      · exact ih (steady.of_step h)

/-- **What lasts holds of every machine that does a deed.** -/
theorem forall_deeds_of_lasting (lasting : Lasting s P) {ops : List Operation} (h : P c.machine) :
    ∀ deed ∈ c.deeds s pace ops, P deed.machine := by
  induction ops generalizing c with
  | nil => exact List.forall_mem_nil _
  | cons op ops ih =>
    refine forall_deeds_cons.mpr ⟨?_, ih (lasting.of_operate pace op h)⟩
    cases op with
    | step =>
      intro deed done
      rw [machine_of_deed? (Option.mem_toList.mp done)]
      exact h
    | execute w =>
      intro deed done
      rw [machine_of_deedOf? (Option.mem_toList.mp done)]
      exact h
    | frame accepts => exact Running.forall_deeds lasting.toSteady pace.instructions h
    | _ => exact List.forall_mem_nil _

end Lasting

/-- What no deed of a frame changes is the same at the end of its instructions. -/
theorem view_framed {α : Type} (view : Machine → α) {P : Deed → Prop}
    (keeps : ∀ m : Machine, (∀ deed ∈ m.deed? s, P deed) → view (m.step s).machine = view m)
    (all : ∀ deed ∈ c.frameDeeds s pace, P deed) :
    view (c.framed s pace).machine = view c.machine :=
  Running.view_steps view keeps all

end Console

end Cosmac
