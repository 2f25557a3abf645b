import Cosmac.Proofs.FrameSteps

/-!
# Keys that a program takes

An instruction that waits for a key has taken one when the machine goes on behind it, and which one
is to be read off its register. It is the lowest key that was down, and it counts as up from then on.
Nothing else that a machine carries out changes its keys (`takes_cases`). So the keys after a frame
are those before it without the ones that its instructions have taken, which `taken` lists in order.
-/

namespace Cosmac

namespace Machine

variable {s : Setup} {m next : Machine} {i : Instruction} {k : Nibble}

/-- The key that the next step takes: what it leaves in the register of an instruction that waits for
a key, if the machine goes on behind it. A machine that stays there is still waiting. -/
def takes? (s : Setup) (m : Machine) : Option Nibble :=
  match m.upcoming? s with
  | some (.awaitKey x) =>
    let next := (m.step s).machine
    if next.pc = m.pc then none else some (next.v[x].setWidth 4)
  | _ => none

theorem down_of_lowestKey? (lowest : m.lowestKey? = some k) : m.keys[k] = true :=
  List.find?_some (p := fun k => m.keys[k]) lowest

/-- An instruction that does not wait for a key leaves the keys alone. -/
theorem perform_keys (performed : m.perform s i = .ok next) (other : ∀ x, i ≠ .awaitKey x) :
    next.keys = m.keys := by
  cases i with
  | awaitKey x => exact absurd rfl (other x)
  | _ =>
    simp only [perform] at performed
    (try split at performed) <;> cases performed <;> rfl

/-- An instruction that waits for a key takes the lowest one that is down and goes on, or it goes
back. -/
theorem perform_awaitKey {x : Nibble} (performed : m.perform s (.awaitKey x) = .ok next) :
    (next.pc = m.here ∧ next.keys = m.keys) ∨
      ∃ k, next.pc = m.pc ∧ m.keys[k] = true ∧ next.v = m.v.set x (k.setWidth 8) ∧
        next.keys = m.keys.set k false := by
  rw [perform] at performed
  cases lowest : m.lowestKey? with
  | none =>
    rw [lowest] at performed
    cases performed
    exact .inl ⟨rfl, rfl⟩
  | some k =>
    rw [lowest] at performed
    cases performed
    exact .inr ⟨k, rfl, down_of_lowestKey? lowest, rfl, rfl⟩

/-- A key goes through a register unchanged. -/
theorem setWidth_key (k : Nibble) : (k.setWidth 8).setWidth 4 = k := by
  rw [BitVec.setWidth_setWidth_of_le k (by decide), BitVec.setWidth_eq]

/-- **A step takes a key or leaves the keys alone.** -/
theorem takes_cases (s : Setup) (m : Machine) :
    (m.takes? s = none ∧ (m.step s).machine.keys = m.keys) ∨
      ∃ x k, m.takes? s = some k ∧ m.upcoming? s = some (.awaitKey x) ∧ m.keys[k] = true ∧
        (m.step s).machine.v = m.v.set x (k.setWidth 8) ∧
        (m.step s).machine.keys = m.keys.set k false := by
  unfold takes?
  obtain ⟨idle, -, same | stopped⟩ | ⟨i, next, upcoming, -, performed, done⟩ := upcoming_cases s m
  · rw [idle, same]
    exact .inl ⟨rfl, rfl⟩
  · rw [idle, stopped]
    exact .inl ⟨rfl, rfl⟩
  · rw [upcoming, done]
    by_cases waits : ∃ x, i = .awaitKey x
    · obtain ⟨x, rfl⟩ := waits
      obtain ⟨back, kept⟩ | ⟨k, on, down, register, taken⟩ := perform_awaitKey performed
      · have waiting : next.count.pc = m.pc := back.trans m.here_advance
        exact .inl ⟨if_pos waiting, kept⟩
      · have went : next.count.pc ≠ m.pc := by
          show next.pc ≠ m.pc
          rw [on]
          exact m.pc_advance_ne
        have left : next.count.v[x] = k.setWidth 8 := by
          show next.v[x] = _
          rw [register]
          exact Table.getElem_set_self _ _ _
        refine .inr ⟨x, k, ?_, rfl, down, register, taken⟩
        simp only [if_neg went, left, setWidth_key]
    · have other : ∀ x, i ≠ .awaitKey x := fun x waiting => waits ⟨x, waiting⟩
      have kept : next.keys = m.advance.keys := perform_keys performed other
      refine .inl ⟨?_, kept⟩
      split
      next x waiting =>
        cases waiting
        exact absurd rfl (other x)
      next => rfl

/-- A step takes a key exactly if it carries out an instruction that waits for one and goes on, and
then the register has that key. -/
theorem takes?_eq_some_iff {j : Nibble} :
    m.takes? s = some j ↔
      ∃ x, m.upcoming? s = some (.awaitKey x) ∧ (m.step s).machine.pc ≠ m.pc ∧
        (m.step s).machine.v[x] = j.setWidth 8 := by
  constructor
  · intro takes
    obtain ⟨none, -⟩ | ⟨x, k, some, upcoming, -, register, -⟩ := takes_cases s m
    · rw [none] at takes
      cases takes
    · cases some.symm.trans takes
      refine ⟨x, upcoming, fun stays => ?_, ?_⟩
      · simp [takes?, upcoming, stays] at takes
      · rw [register]
        exact Table.getElem_set_self _ _ _
  · rintro ⟨x, upcoming, went, left⟩
    simp only [takes?, upcoming, if_neg went, left, setWidth_key]

end Machine

namespace Console

/-- The keys that at most `n` more instructions take, in order. -/
def Running.taken (s : Setup) (r : Running) : Nat → List Nibble
  | 0 => []
  | n + 1 =>
    let next := r.step s
    (r.machine.takes? s).toList ++ if next.isOver s then [] else next.taken s n

/-- The keys that the instructions of a frame take, in order. -/
def taken (s : Setup) (pace : Pace) (c : Console) : List Nibble :=
  Running.taken s ⟨c.machine, [], none⟩ pace.instructions

/-- What a frame does after its instructions leaves the keys. -/
theorem keys_frame (s : Setup) (pace : Pace) (accepts : Bool) (c : Console) :
    (c.frame s pace accepts).console.machine.keys = (c.framed s pace).machine.keys :=
  view_frame Machine.keys (fun _ => rfl) (fun _ => rfl) s pace accepts c

end Console

end Cosmac
