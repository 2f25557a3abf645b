import Cosmac.Machine.Program
import Cosmac.Proofs.DisplayWait
import Cosmac.Proofs.Footprints
import Cosmac.Proofs.Lasting
import Mathlib.Algebra.Order.BigOperators.Group.List
import Mathlib.Algebra.Order.Group.Nat

/-!
# The counters account for the run

What an instruction adds to the counters is a record of counters itself, its gain
(`perform_counters`). The counters after a run are those before it and the gains of all deeds in
between (`counters_afterAll`), so what holds of every gain and is kept by sums holds of the run.

This is how the counters relate to the number of instructions. How they relate to the state of the
machine, to the depth of the stack and to the random bytes taken, is an invariant of every single
change, and so is that no counter goes back.
-/

namespace Cosmac

/-! ## Counters as sums -/

namespace Counters

instance : Zero Counters := ⟨{}⟩

instance : Add Counters where
  add a b :=
    { instructions := a.instructions + b.instructions
      draws := a.draws + b.draws
      clears := a.clears + b.clears
      collisions := a.collisions + b.collisions
      calls := a.calls + b.calls
      returns := a.returns + b.returns
      jumps := a.jumps + b.jumps
      skips := a.skips + b.skips
      keyWaits := a.keyWaits + b.keyWaits
      randoms := a.randoms + b.randoms
      reads := a.reads + b.reads
      writes := a.writes + b.writes }

/-- Counters are added counter by counter. -/
theorem add_def (a b : Counters) : a + b =
    ⟨a.instructions + b.instructions, a.draws + b.draws, a.clears + b.clears,
      a.collisions + b.collisions, a.calls + b.calls, a.returns + b.returns, a.jumps + b.jumps,
      a.skips + b.skips, a.keyWaits + b.keyWaits, a.randoms + b.randoms, a.reads + b.reads,
      a.writes + b.writes⟩ := rfl

theorem zero_def : (0 : Counters) = {} := rfl

instance : AddCommMonoid Counters where
  add_assoc a b c := by simp only [add_def, Nat.add_assoc]
  zero_add a := by simp only [add_def, zero_def, Nat.zero_add]
  add_zero a := by simp only [add_def, zero_def, Nat.add_zero]
  add_comm a b := by simp only [add_def, Nat.add_comm]
  nsmul := nsmulRec

/-- Each counter of the one is at most the same counter of the other. -/
instance : LE Counters where
  le a b :=
    a.instructions ≤ b.instructions ∧ a.draws ≤ b.draws ∧ a.clears ≤ b.clears ∧
      a.collisions ≤ b.collisions ∧ a.calls ≤ b.calls ∧ a.returns ≤ b.returns ∧
      a.jumps ≤ b.jumps ∧ a.skips ≤ b.skips ∧ a.keyWaits ≤ b.keyWaits ∧
      a.randoms ≤ b.randoms ∧ a.reads ≤ b.reads ∧ a.writes ≤ b.writes

/-- Counters are compared counter by counter. -/
theorem le_def {a b : Counters} : a ≤ b ↔
    a.instructions ≤ b.instructions ∧ a.draws ≤ b.draws ∧ a.clears ≤ b.clears ∧
      a.collisions ≤ b.collisions ∧ a.calls ≤ b.calls ∧ a.returns ≤ b.returns ∧
      a.jumps ≤ b.jumps ∧ a.skips ≤ b.skips ∧ a.keyWaits ≤ b.keyWaits ∧
      a.randoms ≤ b.randoms ∧ a.reads ≤ b.reads ∧ a.writes ≤ b.writes := Iff.rfl

theorem le_refl (a : Counters) : a ≤ a := by
  simp only [le_def, Nat.le_refl, and_self]

theorem le_trans {a b c : Counters} (first : a ≤ b) (second : b ≤ c) : a ≤ c := by
  rw [le_def] at *
  omega

/-- Adding gains lowers no counter. -/
theorem le_add_right (a b : Counters) : a ≤ a + b := by
  simp only [le_def, add_def, Nat.le_add_right, and_self]

/-- How often something was done of which an instruction does one at most. -/
def exclusive (c : Counters) : Nat :=
  c.clears + c.returns + c.jumps + c.calls + c.skips + c.randoms + c.draws + c.keyWaits

/-- What the counters say fits the number of instructions. -/
structure Balanced (c : Counters) : Prop where
  exclusive : c.exclusive ≤ c.instructions
  collisions : c.collisions ≤ 120 * c.draws
  writes : c.writes ≤ 16 * c.instructions

/-- Counters that have counted nothing balance. -/
theorem balanced_zero : Balanced 0 where
  exclusive := Nat.le_refl 0
  collisions := Nat.le_refl 0
  writes := Nat.le_refl 0

/-- What balances in two parts balances in total. -/
theorem Balanced.add {a b : Counters} (left : a.Balanced) (right : b.Balanced) :
    (a + b).Balanced := by
  obtain ⟨exclusive, collisions, writes⟩ := left
  obtain ⟨exclusive', collisions', writes'⟩ := right
  rw [Counters.exclusive] at exclusive exclusive'
  constructor <;> simp only [add_def, Counters.exclusive] <;> omega

theorem balanced_sum {l : List Counters} (all : ∀ c ∈ l, Balanced c) : l.sum.Balanced := by
  induction l with
  | nil => exact balanced_zero
  | cons c l ih =>
    obtain ⟨first, rest⟩ := List.forall_mem_cons.mp all
    exact first.add (ih rest)

/-- Where every gain counts one instruction, the total counts as many as there are gains. -/
theorem instructions_sum {l : List Counters} (all : ∀ c ∈ l, c.instructions = 1) :
    l.sum.instructions = l.length := by
  induction l with
  | nil => rfl
  | cons c l ih =>
    obtain ⟨first, rest⟩ := List.forall_mem_cons.mp all
    have summed : (c :: l).sum.instructions = c.instructions + l.sum.instructions := rfl
    rw [summed, first, ih rest, List.length_cons, Nat.add_comm]

end Counters

/-! ## How large a sprite is -/

namespace Sprite

/-- A sprite covers at most eight cells in each of its rows. -/
theorem length_cells_le (edge : Edge) (origin : Cell) (rows : List Byte) :
    (cells edge origin rows).length ≤ 8 * rows.length := by
  have narrow : ∀ k ∈ rows.zipIdx.map fun row => (rowCells edge origin row.2 row.1).length,
      k ≤ 8 := by
    intro k mem
    obtain ⟨row, -, rfl⟩ := List.mem_map.mp mem
    exact List.length_filterMap_le _ (List.range 8)
  have total : _ ≤ _ * 8 := List.sum_le_card_nsmul _ 8 narrow
  rw [List.length_map, List.length_zipIdx, Nat.mul_comm] at total
  rw [cells, List.length_flatMap]
  exact total

end Sprite

namespace Machine

/-- A sprite of at most fifteen rows of eight covers at most 120 cells. -/
theorem length_mask_le (d : Dialect) (m : Machine) (x y n : Nibble) :
    (m.mask d x y n).length ≤ 120 := by
  have drawn := Sprite.length_cells_le (edge d) (m.corner x y)
    (m.memory.read m.i (Sprite.rowCount (edge d) (m.corner x y) n.toNat))
  have low := m.rowsDrawn_le d y n
  have rows := n.isLt
  have covered := (m.spriteCells_perm_mask d x y n).length_eq
  rw [Table.length_read, rowCount_corner] at drawn
  rw [spriteCells, rowCount_corner] at covered
  omega

/-! ## What one instruction adds -/

/-- What an instruction adds to the counters. -/
def gain (d : Dialect) (m : Machine) : Instruction → Counters
  | .clear => { clears := 1 }
  | .ret => { returns := 1 }
  | .jump _ | .jumpOffset _ => { jumps := 1 }
  | .call _ => { calls := 1 }
  | .skip c => { skips := (m.holds c).toNat }
  | .random _ _ => { randoms := 1 }
  | .draw x y n =>
    { draws := 1
      reads := m.rowsDrawn d y n
      collisions := (m.mask d x y n).countP (m.display[·]) }
  | .awaitKey _ => { keyWaits := m.lowestKey?.isNone.toNat }
  | .digits x => { writes := (Instruction.digits x).stores }
  | .store x => { writes := (Instruction.store x).stores }
  | .fetch x => { reads := x.toNat + 1 }
  | _ => {}

/-- What a step that does the deed adds to the counters. -/
def Deed.gain (d : Dialect) (deed : Deed) : Counters :=
  { deed.machine.gain d deed.instruction with instructions := 1 }

variable {s : Setup} {m next : Machine} {i : Instruction}

/-- **What is counted of an instruction** is its gain. -/
theorem perform_counters (performed : m.perform s i = .ok next) :
    next.counters = m.counters + m.gain s.dialect i := by
  cases i with
  | skip c =>
    simp only [perform] at performed
    cases holds : m.holds c with
    | true =>
      rw [holds] at performed
      cases performed
      simp [gain, holds, Counters.add_def]
    | false =>
      rw [holds] at performed
      cases performed
      simp [gain, holds, Counters.add_def]
  | awaitKey x =>
    simp only [perform] at performed
    cases lowest : m.lowestKey? with
    | none =>
      rw [lowest] at performed
      cases performed
      simp [gain, lowest, Counters.add_def]
    | some k =>
      rw [lowest] at performed
      cases performed
      simp [gain, lowest, Counters.add_def]
  | draw x y n =>
    cases performed
    rw [drawSprite_eq]
    rfl
  | _ =>
    simp only [perform] at performed
    (try split at performed) <;> cases performed <;> rfl

/-- An instruction gains the same wherever the program counter stands. -/
theorem gain_advance (d : Dialect) (m : Machine) (i : Instruction) :
    m.advance.gain d i = m.gain d i := by
  cases i <;> rfl

/-- A step adds the gain of its instruction and counts the instruction itself. -/
theorem add_gain (c : Counters) (d : Dialect) (m : Machine) (i : Instruction) :
    { c + m.gain d i with instructions := (c + m.gain d i).instructions + 1 } =
      c + Deed.gain d ⟨m, i⟩ := by
  cases i <;> rfl

/-- **No instruction does more than one thing that is counted**, and none hits or writes more cells
than there are in a sprite or registers. -/
theorem Deed.balanced_gain (d : Dialect) (deed : Deed) : (deed.gain d).Balanced := by
  obtain ⟨m, i⟩ := deed
  cases i with
  | draw x y n =>
    have met : (m.mask d x y n).countP (m.display[·]) ≤ 120 :=
      List.countP_le_length.trans (m.length_mask_le d x y n)
    exact { exclusive := Nat.le_refl 1, collisions := met, writes := Nat.zero_le _ }
  | store x => exact { exclusive := Nat.zero_le _, collisions := Nat.zero_le _, writes := x.isLt }
  | _ =>
    constructor <;> simp [gain, Machine.gain, Counters.exclusive, Instruction.stores, Bool.toNat_le]

/-- What deeds add to the counters, if each of them is done by a step. -/
def gains (d : Dialect) (deeds : List Deed) : Counters :=
  (deeds.map (Deed.gain d)).sum

/-- The gains of two stretches of deeds add up. -/
theorem gains_append (d : Dialect) (first last : List Deed) :
    gains d (first ++ last) = gains d first + gains d last := by
  rw [gains, List.map_append, List.sum_append]
  rfl

/-- The gains of any deeds balance. -/
theorem balanced_gains (d : Dialect) (deeds : List Deed) : (gains d deeds).Balanced := by
  refine Counters.balanced_sum fun c mem => ?_
  obtain ⟨deed, -, rfl⟩ := List.mem_map.mp mem
  exact deed.balanced_gain d

/-- Every deed counts one instruction. -/
theorem instructions_gains (d : Dialect) (deeds : List Deed) :
    (gains d deeds).instructions = deeds.length := by
  have one : ∀ c ∈ deeds.map (Deed.gain d), c.instructions = 1 := by
    intro c mem
    obtain ⟨deed, -, rfl⟩ := List.mem_map.mp mem
    rfl
  rw [gains, Counters.instructions_sum one, List.length_map]

/-! ## What a run adds -/

/-- A step adds the gain of its deed, and nothing if it has none. -/
theorem step_counters (s : Setup) (m : Machine) :
    (m.step s).machine.counters = m.counters + gains s.dialect (m.deed? s).toList := by
  obtain ⟨idle, -, same | same⟩ | ⟨i, next, deed, -, performed, same⟩ := deed_cases s m
  · rw [idle, same]
    exact (add_zero m.counters).symm
  · rw [idle, same]
    exact (add_zero m.counters).symm
  · have counted := perform_counters performed
    rw [gain_advance] at counted
    have one : next.count.counters =
        { next.counters with instructions := next.counters.instructions + 1 } := rfl
    have alone : gains s.dialect [⟨m, i⟩] = Deed.gain s.dialect ⟨m, i⟩ := add_zero _
    rw [deed, Option.toList_some, alone, same, one, counted]
    exact add_gain m.counters s.dialect m i

end Machine

namespace Console

open Machine

variable {s : Setup} {pace : Pace} {c : Console}

/-- The steps of a run add the gains of their deeds. -/
theorem Running.counters_steps (s : Setup) (n : Nat) (r : Running) :
    (r.steps s n).machine.counters = r.machine.counters + gains s.dialect (r.deeds s n) := by
  induction n generalizing r with
  | zero => exact (add_zero _).symm
  | succ n ih =>
    have first : (r.step s).machine.counters =
        r.machine.counters + gains s.dialect (r.machine.deed? s).toList :=
      step_counters s r.machine
    rw [Running.steps, Running.deeds, gains_append, ← add_assoc, ← first]
    split
    case isTrue => exact (add_zero _).symm
    case isFalse => exact ih (r.step s)

/-- An operation adds the gains of its deeds to the counters, unless it is a word from outside. -/
theorem operate_counters {op : Operation} (stepped : ∀ w, op ≠ .execute w) :
    (c.operate s pace op).console.machine.counters =
      c.machine.counters + gains s.dialect (c.deedsOf s pace op) := by
  cases op with
  | step => exact step_counters s c.machine
  | execute w => exact absurd rfl (stepped w)
  | frame accepts => exact (counters_frame s pace accepts c).trans (Running.counters_steps s _ _)
  | _ => exact (add_zero c.machine.counters).symm

/-- **The counters after a run** are those before it and the gains of its deeds. -/
theorem counters_afterAll (s : Setup) (pace : Pace) (c : Console) {ops : List Operation}
    (stepped : ∀ w, .execute w ∉ ops) :
    (c.afterAll s pace ops).machine.counters =
      c.machine.counters + gains s.dialect (c.deeds s pace ops) := by
  induction ops generalizing c with
  | nil => exact (add_zero c.machine.counters).symm
  | cons op ops ih =>
    have first : ∀ w, op ≠ .execute w := fun w same => stepped w (same ▸ List.mem_cons_self)
    have rest : ∀ w, .execute w ∉ ops := fun w mem => stepped w (List.mem_cons_of_mem op mem)
    rw [afterAll_cons, ih _ rest, operate_counters first, deeds, gains_append, add_assoc]

end Console

/-! ## What every change keeps -/

namespace Machine

/-- What is said of the counters, the depth of the stack and the random bytes taken lasts if
instructions and their count keep it, for nothing from outside bears on these. -/
theorem lasting_of_accounts {s : Setup} (Q : Counters → Nat → Nat → Prop)
    (perform : ∀ {m next : Machine} {i}, m.perform s i = .ok next → Q m.counters m.sp m.drawn →
      Q next.counters next.sp next.drawn)
    (count : ∀ {c depth drawn}, Q c depth drawn →
      Q { c with instructions := c.instructions + 1 } depth drawn) :
    Lasting s fun m => Q m.counters m.sp m.drawn where
  stop := id
  advance := id
  perform := fun before performed => perform performed before
  count := count
  setKey := fun _ _ => id
  setDelay := fun _ => id
  setSound := fun _ => id
  tickTimers := id
  markShown := id

/-- **No counter goes back.** -/
theorem counters_lasting (s : Setup) (c : Counters) : Lasting s fun m => c ≤ m.counters := by
  refine lasting_of_accounts (fun counters _ _ => c ≤ counters) ?_ ?_
  · intro m next i performed before
    rw [perform_counters performed]
    exact Counters.le_trans before (Counters.le_add_right m.counters _)
  · intro counters depth drawn before
    exact Counters.le_trans before (Counters.le_add_right counters { instructions := 1 })

/-- The counters agree with the state of the machine: calls that have not returned are on the stack,
and every random number took one byte. -/
def Accounted (c : Counters) (depth drawn : Nat) : Prop :=
  c.calls = c.returns + depth ∧ c.randoms = drawn

/-- Counters that account for the stack and the random bytes keep doing so. -/
theorem accounted_lasting (s : Setup) :
    Lasting s fun m => Accounted m.counters m.sp m.drawn := by
  refine lasting_of_accounts Accounted ?_ id
  intro m next i performed ⟨depth, drawn⟩
  cases i with
  | call nnn =>
    simp only [perform] at performed
    split at performed <;> cases performed
    exact ⟨congrArg (· + 1) depth, drawn⟩
  | ret =>
    simp only [perform] at performed
    split at performed <;> cases performed
    refine ⟨?_, drawn⟩
    show m.counters.calls = m.counters.returns + 1 + (m.sp - 1)
    omega
  | random x kk =>
    cases performed
    exact ⟨depth, congrArg (· + 1) drawn⟩
  | _ =>
    simp only [perform] at performed
    (try split at performed) <;> cases performed <;> exact ⟨depth, drawn⟩

end Machine

namespace Console

open Machine

/-- **The counters account for the run.** Take a console whose machine is empty apart from its
memory, as one is that was given a program, and any operations. The calls that have not returned are
as many as there are addresses on the stack, and whatever is done next, no counter goes back. Unless
words were carried out from outside, the instructions counted are the deeds, each of them a step
that met no fault; of the things that exclude each other they did one each at most; every random
number took one byte from the source; no draw hit more cells than a sprite has; and no instruction
wrote more than sixteen bytes. -/
theorem counters_account (s : Setup) (pace : Pace) {c : Console} {memory : Table 12 Byte}
    (fresh : c.machine = { Machine.empty with memory }) (ops : List Operation) :
    let last := c.afterAll s pace ops
    let counters := last.machine.counters
    counters.calls = counters.returns + last.machine.sp ∧
      (∀ more, counters ≤ (last.afterAll s pace more).machine.counters) ∧
      ((∀ w, .execute w ∉ ops) →
        counters.instructions = (c.deeds s pace ops).length ∧
          (∀ deed ∈ c.deeds s pace ops, (deed.machine.step s).fault? = none) ∧
          counters.clears + counters.returns + counters.jumps + counters.calls + counters.skips +
            counters.randoms + counters.draws + counters.keyWaits ≤ counters.instructions ∧
          counters.randoms = last.machine.drawn ∧
          counters.collisions ≤ 120 * counters.draws ∧
          counters.writes ≤ 16 * counters.instructions) := by
  intro last counters
  have begins : Accounted c.machine.counters c.machine.sp c.machine.drawn := by
    rw [fresh]
    exact ⟨rfl, rfl⟩
  obtain ⟨depth, drawn⟩ := (accounted_lasting s).of_afterAll pace ops begins
  refine ⟨depth, fun more => ?_, fun stepped => ?_⟩
  · exact (counters_lasting s counters).of_afterAll pace more (Counters.le_refl counters)
  · have gained : counters = gains s.dialect (c.deeds s pace ops) := by
      have total := counters_afterAll s pace c stepped
      rw [fresh] at total
      exact total.trans (zero_add _)
    have length : counters.instructions = (c.deeds s pace ops).length := by
      rw [gained, instructions_gains]
    have balanced : counters.Balanced := gained ▸ balanced_gains s.dialect _
    exact ⟨length, fun deed done => fault?_of_deed (deed?_of_deeds stepped deed done),
      balanced.exclusive, drawn, balanced.collisions, balanced.writes⟩

/-- A program that calls a subroutine and then goes in circles. The subroutine takes a random number,
draws the digit 0 and erases it again, and returns. -/
def calling : Program :=
  .bytes [0x22, 0x04, 0x12, 0x02, 0xC1, 0xFF, 0xD2, 0x35, 0xD2, 0x35, 0x00, 0xEE]

/-- A console with memory for the program that calls a subroutine. -/
def caller : Console where
  machine := { Machine.empty with
    memory := (Machine.empty.memory.write 0 font).write programStart
      [0x22, 0x04, 0x12, 0x02, 0xC1, 0xFF, 0xD2, 0x35, 0xD2, 0x35, 0x00, 0xEE] }
  speaker := .silent {}

/-- Two frames, a step, a key and a timer. -/
def mixedOperations : List Operation :=
  [.frame true, .setKey 5 true, .step, .frame true, .setDelay 9]

theorem counters_account_caller :
    let last := caller.afterAll {} ⟨2, by decide⟩ mixedOperations
    boot calling = .ok (caller.machine, 12) ∧
      (∀ w, Operation.execute w ∉ mixedOperations) ∧
      last.machine.counters =
        { instructions := 5, draws := 2, calls := 1, returns := 1, randoms := 1, reads := 10,
          collisions := 14 } ∧
      last.machine.counters.calls = last.machine.counters.returns + last.machine.sp ∧
      last.machine.counters ≤
        (last.afterAll {} ⟨2, by decide⟩ [.execute 0xFFFF, .frame true]).machine.counters ∧
      last.machine.counters.instructions =
        (caller.deeds {} ⟨2, by decide⟩ mixedOperations).length ∧
      last.machine.counters.randoms = last.machine.drawn ∧
      last.machine.counters.collisions ≤ 120 * last.machine.counters.draws := by
  intro last
  have stepped : ∀ w, Operation.execute w ∉ mixedOperations := by
    simp [mixedOperations]
  have counted : last.machine.counters =
      { instructions := 5, draws := 2, calls := 1, returns := 1, randoms := 1, reads := 10,
        collisions := 14 } := by decide +kernel
  obtain ⟨depth, onward, account⟩ :=
    counters_account {} ⟨2, by decide⟩ (c := caller) rfl mixedOperations
  obtain ⟨length, -, -, drawn, collisions, -⟩ := account stepped
  exact ⟨rfl, stepped, counted, depth, onward _, length, drawn, collisions⟩

end Console

end Cosmac
