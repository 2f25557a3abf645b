import Cosmac.Proofs.Deeds
import Cosmac.Proofs.Encoding
import Cosmac.Proofs.KeyWaits

/-!
# What an instruction can change

The footprint of an instruction is what its definition names: the register that takes its result,
the block of memory that it writes, the stack slot of a call, and so on. An instruction changes
nothing outside of its footprint, whatever its operands are, also where two of them name the same
register or one of them the flag, and where a block goes on from the end of memory at its start.

Instructions are told apart here by what they may change. Each part of the machine has one lemma,
which goes through the instructions once, and `Confined` puts the parts together. The program
counter and the counters are not among them.
-/

namespace Cosmac

/-! ## Footprints -/

/-- The operation writes the flag, wherever its result goes: `8xy1` to `8xy3` only in dialects in
which they clear it first, `8xy4` to `8xy7` and `8xyE` always. -/
def Arith.flags (d : Dialect) : Arith → Bool
  | .copy => false
  | .or | .and | .xor => d.vfReset
  | _ => true

namespace Instruction

/-- The instruction clears the display or draws on it: `00E0` and `Dxyn`. -/
def redraws : Instruction → Bool
  | .clear | .draw _ _ _ => true
  | _ => false

/-- How many bytes the instruction writes to memory, the first one at the index: three for `Fx33`,
and one for each register up to `x` for `Fx55`. -/
def stores : Instruction → Nat
  | .digits _ => 3
  | .store x => x.toNat + 1
  | _ => 0

/-- The instruction leaves the index elsewhere: `Annn`, `Fx1E`, `Fx29`, and in some dialects `Fx55`
and `Fx65`. -/
def movesIndex (d : Dialect) : Instruction → Bool
  | .setIndex _ | .addIndex _ | .glyph _ => true
  | .store _ | .fetch _ => d.memory
  | _ => false

/-- The result of the instruction goes to register `r`: to `x` alone for `6xkk`, `7xkk`, `8xyn`,
`Cxkk`, `Fx07` and `Fx0A`, and to all registers up to `x` for `Fx65`. -/
def targets : Instruction → Nibble → Bool
  | .load x _, r => r == x
  | .add x _, r => r == x
  | .arith _ x _, r => r == x
  | .random x _, r => r == x
  | .readDelay x, r => r == x
  | .awaitKey x, r => r == x
  | .fetch x, r => decide (r ≤ x)
  | _, _ => false

/-- The instruction writes the flag, wherever its result goes. -/
def flags (d : Dialect) : Instruction → Bool
  | .arith op _ _ => op.flags d
  | .draw _ _ _ => true
  | _ => false

/-- The instruction takes a random byte: `Cxkk`. -/
def isRandom : Instruction → Bool
  | .random _ _ => true
  | _ => false

end Instruction

namespace Machine

variable {s : Setup} {m next : Machine} {i : Instruction}

/-! ## Registers -/

/-- A register holds what it held before, or it is the flag, which may be written, and holds a
bit. -/
def HeldOrFlagged (v w : Table 4 Byte) (flags : Bool) (r : Nibble) : Prop :=
  w[r] = v[r] ∨ (r = flag ∧ flags = true ∧ (w[r] = 0 ∨ w[r] = 1))

/-- What is said of a register depends on its content only. -/
theorem HeldOrFlagged.congr {u v w : Table 4 Byte} {flags : Bool} {r : Nibble}
    (h : HeldOrFlagged u v flags r) (same : w[r] = v[r]) : HeldOrFlagged u w flags r := by
  rw [HeldOrFlagged, same]
  exact h

/-- A bit that is put into the flag is seen there and nowhere else. -/
theorem heldOrFlagged_set_flag {v w : Table 4 Byte} {r : Nibble} (held : w[r] = v[r]) {b : Byte}
    (bit : b = 0 ∨ b = 1) : HeldOrFlagged v (w.set flag b) true r := by
  by_cases isFlag : r = flag
  · subst isFlag
    refine .inr ⟨rfl, rfl, ?_⟩
    rw [Table.getElem_set_self]
    exact bit
  · exact .inl ((Table.getElem_set_ne w b isFlag).trans held)

theorem bit_of_ite (p : Prop) [Decidable p] :
    (if p then 1 else 0 : Byte) = 0 ∨ (if p then 1 else 0 : Byte) = 1 := by
  by_cases h : p
  · exact .inr (if_pos h)
  · exact .inl (if_neg h)

/-- Arithmetic writes its target, and at most a bit into the flag. -/
theorem heldOrFlagged_apply (d : Dialect) (op : Arith) (x y : Nibble) (v : Table 4 Byte)
    {r : Nibble} (other : r ≠ x) : HeldOrFlagged v (op.apply d x y v) (op.flags d) r := by
  have result (w : Table 4 Byte) (b : Byte) : (w.set x b)[r] = w[r] :=
    Table.getElem_set_ne w b other
  cases op with
  | copy => exact .inl (result v _)
  | or | and | xor =>
    simp only [Arith.apply, Arith.flags]
    cases d.vfReset with
    | false => exact .inl (result v _)
    | true =>
      -- the flag is cleared first, and then the result is written
      have cleared : HeldOrFlagged v (v.set flag 0) true r := heldOrFlagged_set_flag rfl (.inl rfl)
      exact cleared.congr (result _ _)
  | add | sub | shiftRight | subFrom | shiftLeft =>
    exact heldOrFlagged_set_flag (result v _) (bit_of_ite _)

/-- The registers up to `x` are a block of `x + 1` that starts with register zero. -/
theorem ne_of_not_le {r x : Nibble} (past : ¬ r ≤ x) :
    ∀ n < x.toNat + 1, r ≠ 0 + BitVec.ofNat 4 n := by
  intro n within same
  have counted : r.toNat = n % 16 := by
    rw [same]
    simp
  rw [BitVec.le_def] at past
  omega

/-- **A register that is no target keeps its content**, the flag apart. -/
theorem perform_registers (performed : m.perform s i = .ok next) {r : Nibble}
    (untargeted : i.targets r = false) : HeldOrFlagged m.v next.v (i.flags s.dialect) r := by
  have set_ne {x : Nibble} (b : Byte) (other : (r == x) = false) : (m.v.set x b)[r] = m.v[r] :=
    Table.getElem_set_ne m.v b (beq_eq_false_iff_ne.mp other)
  cases i with
  | load x kk | add x kk | random x kk | readDelay x =>
    cases performed
    exact .inl (set_ne _ untargeted)
  | awaitKey x =>
    simp only [perform] at performed
    split at performed <;> cases performed
    · exact .inl (set_ne _ untargeted)
    · exact .inl rfl
  | arith op x y =>
    cases performed
    exact heldOrFlagged_apply s.dialect op x y m.v (beq_eq_false_iff_ne.mp untargeted)
  | draw x y n =>
    cases performed
    rw [drawSprite_eq]
    exact heldOrFlagged_set_flag rfl (bit_of_ite _)
  | fetch x =>
    cases performed
    refine .inl (Table.getElem_write_of_outside m.v 0 _ ?_)
    rw [Table.length_read]
    exact ne_of_not_le (of_decide_eq_false untargeted)
  | _ =>
    simp only [perform] at performed
    (try split at performed) <;> cases performed <;> exact .inl rfl

/-! ## Memory, index and random bytes -/

/-- **What is written to memory is a block that starts at the index.** -/
theorem perform_memory (performed : m.perform s i = .ok next) :
    ∃ bytes : List Byte, bytes.length = i.stores ∧ next.memory = m.memory.write m.i bytes := by
  cases i with
  | digits x =>
    cases performed
    exact ⟨decimal m.v[x], rfl, rfl⟩
  | store x =>
    cases performed
    exact ⟨_, Table.length_read m.v 0 (x.toNat + 1), rfl⟩
  | _ =>
    simp only [perform] at performed
    (try split at performed) <;> cases performed <;> exact ⟨[], rfl, rfl⟩

/-- A cell of memory that changes is one of those an instruction stores to. -/
theorem perform_memory_cell (performed : m.perform s i = .ok next) {a : Addr}
    (changed : next.memory[a] ≠ m.memory[a]) :
    ∃ k < i.stores, a.toNat = (m.i.toNat + k) % 4096 := by
  obtain ⟨bytes, length, same⟩ := perform_memory performed
  by_cases inside : ∃ k < i.stores, a = m.i + BitVec.ofNat 12 k
  · obtain ⟨k, within, rfl⟩ := inside
    exact ⟨k, within, by simp⟩
  · refine absurd ?_ changed
    rw [same]
    exact Table.getElem_write_of_outside m.memory m.i bytes fun k within at_ =>
      inside ⟨k, length ▸ within, at_⟩

/-- An instruction that does not move the index leaves it. -/
theorem perform_index (performed : m.perform s i = .ok next)
    (still : i.movesIndex s.dialect = false) : next.i = m.i := by
  cases i with
  | setIndex | addIndex | glyph => cases still
  | store x | fetch x =>
    cases performed
    have off : s.dialect.memory = false := still
    simp only [indexAfter, off, Bool.false_eq_true, if_false]
  | _ =>
    simp only [perform] at performed
    (try split at performed) <;> cases performed <;> rfl

/-- Only an instruction that draws a random byte takes one. -/
theorem perform_drawn (performed : m.perform s i = .ok next) :
    next.drawn = m.drawn + i.isRandom.toNat := by
  cases i with
  | random x kk =>
    cases performed
    rfl
  | _ =>
    simp only [perform] at performed
    (try split at performed) <;> cases performed <;> rfl

/-- What neither clears nor draws does not touch the display. -/
theorem touches_redraws {d : Dialect} (untouched : i.redraws = false) : m.touches d i = false := by
  cases i with
  | clear | draw => cases untouched
  | _ => rfl

/-- A key that an instruction takes was down. -/
theorem perform_keys_cases (performed : m.perform s i = .ok next) :
    next.keys = m.keys ∨
      ∃ x k, i = .awaitKey x ∧ m.keys[k] = true ∧ next.keys = m.keys.set k false := by
  by_cases waits : ∃ x, i = .awaitKey x
  · obtain ⟨x, rfl⟩ := waits
    obtain ⟨-, kept⟩ | ⟨k, -, down, -, taken⟩ := perform_awaitKey performed
    · exact .inl kept
    · exact .inr ⟨x, k, rfl, down, taken⟩
  · exact .inl (perform_keys performed fun x waiting => waits ⟨x, waiting⟩)

/-! ## All parts together -/

/-- **What an instruction may change**, one part of the machine after the other. -/
structure Confined (d : Dialect) (m : Machine) (i : Instruction) (next : Machine) : Prop where
  display : next.display ≠ m.display → i.redraws = true
  /-- The mark is never taken down, -/
  marked : m.dirty = true → next.dirty = true
  /-- and brought up only where the display may change. -/
  dirty : next.dirty ≠ m.dirty → i.redraws = true
  memory : ∀ a : Addr, next.memory[a] ≠ m.memory[a] →
    ∃ k < i.stores, a.toNat = (m.i.toNat + k) % 4096
  stack : ∀ k : Nibble, next.stack[k] ≠ m.stack[k] → (∃ nnn, i = .call nnn) ∧ k.toNat = m.sp
  depth : next.sp ≠ m.sp →
    (∃ nnn, i = .call nnn ∧ next.sp = m.sp + 1) ∨ (i = .ret ∧ m.sp = next.sp + 1)
  index : next.i ≠ m.i → i.movesIndex d = true
  timer : ∀ timer, next.timer timer ≠ m.timer timer → i.sets timer = true
  keys : next.keys ≠ m.keys →
    ∃ x k, i = .awaitKey x ∧ m.keys[k] = true ∧ next.keys = m.keys.set k false
  registers : ∀ r : Nibble, next.v[r] ≠ m.v[r] →
    i.targets r = true ∨ (r = flag ∧ i.flags d = true ∧ (next.v[r] = 0 ∨ next.v[r] = 1))
  drawn : next.drawn = m.drawn + i.isRandom.toNat

/-- What is the same unless a condition holds has only changed if it holds. -/
theorem eq_true_of_changed {α : Type} {a b : α} {p : Bool} (kept : p = false → a = b)
    (changed : a ≠ b) : p = true := by
  cases p with
  | false => exact absurd (kept rfl) changed
  | true => rfl

/-- A slot of the stack that changes is the one a call writes to. -/
theorem stack_of_changed (performed : m.perform s i = .ok next) {k : Nibble}
    (changed : next.stack[k] ≠ m.stack[k]) : (∃ nnn, i = .call nnn) ∧ k.toNat = m.sp := by
  obtain ⟨nnn, call, room, -, same⟩ | ⟨-, -, same, -⟩ | ⟨-, -, -, same⟩ := perform_stack performed
  · refine ⟨⟨nnn, call⟩, ?_⟩
    by_cases slot : k = BitVec.ofNat 4 m.sp
    · rw [slot, BitVec.toNat_ofNat]
      exact Nat.mod_eq_of_lt room
    · refine absurd ?_ changed
      rw [same, Table.getElem_set_ne _ _ slot]
  · exact absurd (by rw [same]) changed
  · exact absurd (by rw [same]) changed

/-- **No instruction leaves its footprint.** -/
theorem confined_of_perform (performed : m.perform s i = .ok next) :
    Confined s.dialect m i next where
  display := eq_true_of_changed fun other => perform_display performed (touches_redraws other)
  marked := fun dirty => by rw [perform_dirty performed, dirty, Bool.true_or]
  dirty := eq_true_of_changed fun other => by
    rw [perform_dirty performed, touches_redraws other, Bool.or_false]
  memory := fun _ => perform_memory_cell performed
  stack := fun _ => stack_of_changed performed
  depth := fun changed => by
    obtain ⟨nnn, call, -, deeper, -⟩ | ⟨ret, back, -⟩ | ⟨-, -, same, -⟩ := perform_stack performed
    · exact .inl ⟨nnn, call, deeper⟩
    · exact .inr ⟨ret, back⟩
    · exact absurd same changed
  index := eq_true_of_changed (perform_index performed)
  timer := fun _ => eq_true_of_changed (perform_timer performed)
  keys := fun changed => (perform_keys_cases performed).resolve_left changed
  registers := fun r changed => by
    cases target : i.targets r with
    | true => exact .inl rfl
    | false => exact .inr ((perform_registers performed target).resolve_left changed)
  drawn := perform_drawn performed

/-- An instruction that neither aims at the flag nor sets it leaves it. -/
theorem Confined.flag_kept {d : Dialect} (confined : Confined d m i next)
    (untargeted : i.targets flag = false) (unflagged : i.flags d = false) :
    next.v[flag] = m.v[flag] := by
  refine Decidable.byContradiction fun changed => ?_
  obtain target | ⟨-, flags, -⟩ := confined.registers flag changed
  · rw [untargeted] at target
    cases target
  · rw [unflagged] at flags
    cases flags

/-- **A word that is carried out changes only what its instruction names.** It is the encoding of an
instruction, and whatever the operands, the dialect and the state of the machine are, each part is
as before unless the instruction is one of those that may change it. A sum with a constant leaves
the flag alone unless it goes to it, and so does a sum with the index. -/
theorem execute_confined (s : Setup) (m : Machine) (w : Word)
    (done : (m.execute s w).fault? = none) :
    let next := (m.execute s w).machine
    ∃ i : Instruction, w = i.encode ∧ Confined s.dialect m i next ∧
      ((∃ x kk, i = .add x kk ∧ x ≠ flag) ∨ (∃ x, i = .addIndex x) →
        next.v[flag] = m.v[flag]) := by
  intro next
  obtain ⟨f, stopped⟩ | ⟨i, next', decoded, performed, same⟩ := execute_cases s m w
  · rw [stopped] at done
    cases done
  · have next_eq : next = next' := congrArg Reply.machine same
    have confined : Confined s.dialect m i next := next_eq ▸ confined_of_perform performed
    refine ⟨i, Instruction.decode?_eq_some_iff.mp decoded, confined, ?_⟩
    rintro (⟨x, kk, rfl, other⟩ | ⟨x, rfl⟩)
    · exact confined.flag_kept (beq_eq_false_iff_ne.mpr other.symm) rfl
    · exact confined.flag_kept rfl rfl

/-- A machine that is about to write registers across the end of memory. -/
def straddling : Machine :=
  { empty with i := 0xFFE, v := (Table.fill 7).set 2 9 }

/-- A setup in which block transfers move the index. -/
def movingIndex : Setup :=
  { dialect := { memory := true } }

theorem execute_confined_straddling :
    let next := (straddling.execute movingIndex 0xF255).machine
    (straddling.execute movingIndex 0xF255).fault? = none ∧
      next.memory[(0 : Addr)] = 9 ∧ next.i = 1 ∧
      (∀ a : Addr, a ≠ 0xFFE → a ≠ 0xFFF → a ≠ 0 → next.memory[a] = straddling.memory[a]) ∧
      ∀ r : Nibble, next.v[r] = straddling.v[r] := by
  intro next
  have done : (straddling.execute movingIndex 0xF255).fault? = none := rfl
  have last : next.memory[(0 : Addr)] = 9 := by decide +kernel
  obtain ⟨i, encoded, confined, -⟩ := execute_confined movingIndex straddling 0xF255 done
  have decoded : Instruction.decode? 0xF255 = some i := Instruction.decode?_eq_some_iff.mpr encoded
  have store : Instruction.decode? 0xF255 = some (.store 2) := rfl
  cases store.symm.trans decoded
  refine ⟨done, last, rfl, fun a first second third => ?_, fun r => ?_⟩
  · refine Decidable.byContradiction fun changed => ?_
    obtain ⟨k, within, place⟩ := confined.memory a changed
    have index : straddling.i.toNat = 0xFFE := rfl
    simp only [Instruction.stores] at within
    bv_omega
  · refine Decidable.byContradiction fun changed => ?_
    obtain target | ⟨-, flags, -⟩ := confined.registers r changed
    · cases target
    · cases flags

end Machine

end Cosmac
