import Cosmac.Proofs.Footprints

/-!
# Arithmetic on two registers is exact

A byte has no room for the sum of two bytes, for a difference below zero or for a doubled byte. The
operations that can run out of room leave what does not fit in the flag: a carry, the absence of a
borrow or the bit that was shifted out. `Arith.Ties` is the equation in whole numbers between the
operands, the result and the flag. Since the result is a byte and the flag a bit, the equation
leaves no choice (`Ties.unique`): it says all that there is to say about such an operation, also
where the result goes to the flag register and is lost.

The bitwise operations have nothing to leave in the flag. In some dialects they clear it before they
read their operands, so `operand` is what they read.

All operands are those from before the instruction. This is what has to be shown, since the two
registers may be the same one, and either of them may be the flag.
-/

namespace Cosmac

namespace Arith

/-! ## Operations that leave something in the flag -/

/-- The operation leaves a carry, a borrow or a bit in the flag. -/
def carries : Arith → Bool
  | .add | .sub | .subFrom | .shiftRight | .shiftLeft => true
  | .copy | .or | .and | .xor => false

/-- What the result and the flag have to do with the operands `a` and `b`, or with the byte that is
shifted. The flag of a difference is up if nothing was borrowed. -/
def Ties (op : Arith) (a b shifted result carry : Byte) : Prop :=
  let r : Int := result.toNat
  let c : Int := carry.toNat
  c ≤ 1 ∧
    match op with
    | .add => r + 256 * c = a.toNat + b.toNat
    | .sub => r = a.toNat - b.toNat + 256 * (1 - c)
    | .subFrom => r = b.toNat - a.toNat + 256 * (1 - c)
    | .shiftRight => 2 * r + c = shifted.toNat
    | .shiftLeft => 256 * c + r = 2 * shifted.toNat
    | .copy | .or | .and | .xor => False

/-- **The equation determines the result and the flag.** -/
theorem Ties.unique {op : Arith} {a b shifted r r' c c' : Byte} (ties : op.Ties a b shifted r c)
    (ties' : op.Ties a b shifted r' c') : r' = r ∧ c' = c := by
  obtain ⟨bit, equation⟩ := ties
  obtain ⟨bit', equation'⟩ := ties'
  have small := r.isLt
  have small' := r'.isLt
  rw [← BitVec.toNat_inj, ← BitVec.toNat_inj]
  cases op <;> simp only at equation equation' <;> omega

theorem toNat_flag (p : Prop) [Decidable p] :
    (if p then 1 else 0 : Byte).toNat = if p then 1 else 0 := by
  split <;> rfl

/-- The sum and its carry fit the two operands. -/
theorem ties_add (a b shifted : Byte) :
    Ties .add a b shifted (a + b) (if 256 ≤ a.toNat + b.toNat then 1 else 0) := by
  simp only [Ties, toNat_flag, BitVec.toNat_add]
  split <;> omega

/-- The difference and its missing borrow fit the two operands. -/
theorem ties_sub (a b shifted : Byte) :
    Ties .sub a b shifted (a - b) (if b.toNat ≤ a.toNat then 1 else 0) := by
  simp only [Ties, toNat_flag, BitVec.toNat_sub]
  split <;> omega

/-- A shift to the right halves, and the bit that falls out is the remainder. -/
theorem ties_shiftRight (a b shifted : Byte) :
    Ties .shiftRight a b shifted (shifted >>> 1) (if shifted.getLsbD 0 then 1 else 0) := by
  have lowest : shifted.getLsbD 0 = decide (shifted.toNat % 2 = 1) := Nat.testBit_zero _
  simp only [Ties, toNat_flag, lowest, decide_eq_true_eq, BitVec.toNat_ushiftRight,
    Nat.shiftRight_eq_div_pow]
  split <;> omega

/-- A shift to the left doubles, and the bit that falls out is the carry. -/
theorem ties_shiftLeft (a b shifted : Byte) :
    Ties .shiftLeft a b shifted (shifted <<< 1) (if shifted.msb then 1 else 0) := by
  simp only [Ties, toNat_flag, BitVec.msb_eq_decide, decide_eq_true_eq, BitVec.toNat_shiftLeft,
    Nat.shiftLeft_eq]
  split <;> omega

/-- **The result is written first and the flag after it**, both computed from the operands as they
were. -/
theorem exists_ties (d : Dialect) {op : Arith} (carrying : op.carries = true) (x y : Nibble)
    (v : Table 4 Byte) :
    ∃ result carry, op.Ties v[x] v[y] (if d.shifting then v[y] else v[x]) result carry ∧
      op.apply d x y v = (v.set x result).set Machine.flag carry := by
  cases op with
  | copy | or | and | xor => cases carrying
  | add => exact ⟨_, _, ties_add v[x] v[y] _, by simp only [apply, decide_eq_true_eq]⟩
  | sub => exact ⟨_, _, ties_sub v[x] v[y] _, by simp only [apply, decide_eq_true_eq]⟩
  | subFrom =>
    have ties := ties_sub v[y] v[x] (if d.shifting then v[y] else v[x])
    exact ⟨_, _, ties, by simp only [apply, decide_eq_true_eq]⟩
  | shiftRight => exact ⟨_, _, ties_shiftRight v[x] v[y] _, rfl⟩
  | shiftLeft => exact ⟨_, _, ties_shiftLeft v[x] v[y] _, rfl⟩

/-! ## Bitwise operations -/

/-- The function of two bytes that a bitwise operation computes. -/
def bitwise? : Arith → Option (Byte → Byte → Byte)
  | .or => some (· ||| ·)
  | .and => some (· &&& ·)
  | .xor => some (· ^^^ ·)
  | _ => none

/-- What a bitwise operation reads from a register: in a dialect that clears the flag first, the
flag counts as zero. -/
def operand (d : Dialect) (v : Table 4 Byte) (r : Nibble) : Byte :=
  if d.vfReset = true ∧ r = Machine.flag then 0 else v[r]

/-- The registers after the flag was cleared, in the dialects that do so. -/
def cleared (d : Dialect) (v : Table 4 Byte) : Table 4 Byte :=
  if d.vfReset then v.set Machine.flag 0 else v

/-- The registers with the flag cleared hold the operands. -/
theorem getElem_cleared (d : Dialect) (v : Table 4 Byte) (r : Nibble) :
    (cleared d v)[r] = operand d v r := by
  cases reset : d.vfReset with
  | false => simp [cleared, operand, reset]
  | true => simp [cleared, operand, reset, Table.getElem_set]

/-- A bitwise operation combines its two operands. -/
theorem apply_of_bitwise (d : Dialect) {op : Arith} {f : Byte → Byte → Byte}
    (bitwise : op.bitwise? = some f) (x y : Nibble) (v : Table 4 Byte) :
    op.apply d x y v = (cleared d v).set x (f (operand d v x) (operand d v y)) := by
  rw [← getElem_cleared, ← getElem_cleared]
  cases op <;> cases bitwise <;> rfl

end Arith

namespace Machine

/-- **Operations on two registers are exact, whichever registers they are.** They never fail and
change registers only: the first operand and, if they leave something there, the flag. A copy is a
copy. A bitwise operation leaves the function of its operands, and the flag as it read it unless the
result goes there. Of all other operations the result and the flag are what their equation
determines; where the result would go to the flag register, the flag stands there instead. -/
theorem arith_exact (s : Setup) (m : Machine) (op : Arith) (x y : Nibble) :
    let reply := m.execute s (Instruction.arith op x y).encode
    let v := reply.machine.v
    let operand := Arith.operand s.dialect m.v
    let ties := op.Ties m.v[x] m.v[y] (if s.dialect.shifting then m.v[y] else m.v[x])
    reply.fault? = none ∧ reply.notices = [] ∧ reply.machine = { m with v := v } ∧
      (∀ r, r ≠ x → r ≠ flag → v[r] = m.v[r]) ∧
      (op = .copy → v[x] = m.v[y] ∧ (x ≠ flag → v[flag] = m.v[flag])) ∧
      (∀ f, op.bitwise? = some f →
        v[x] = f (operand x) (operand y) ∧ (x ≠ flag → v[flag] = operand flag)) ∧
      (op.carries = true → (x ≠ flag → ties v[x] v[flag]) ∧ ∃ result, ties result v[flag] ∧
        ∀ result' carry', ties result' carry' → result' = result ∧ carry' = v[flag]) := by
  have done : m.execute s (Instruction.arith op x y).encode =
      ⟨{ m with v := op.apply s.dialect x y m.v }, [], none⟩ := execute_encode rfl
  rw [done]
  refine ⟨rfl, rfl, rfl, ?others, ?copy, ?bitwise, ?carrying⟩
  case others =>
    intro r other unflagged
    exact (heldOrFlagged_apply s.dialect op x y m.v other).resolve_right fun held =>
      unflagged held.1
  case copy =>
    rintro rfl
    exact ⟨Table.getElem_set_self m.v x m.v[y], fun other => Table.getElem_set_ne m.v _ other.symm⟩
  case bitwise =>
    intro f bitwise
    rw [Arith.apply_of_bitwise s.dialect bitwise]
    refine ⟨Table.getElem_set_self _ x _, fun other => ?_⟩
    rw [Table.getElem_set_ne _ _ other.symm]
    exact Arith.getElem_cleared s.dialect m.v flag
  case carrying =>
    intro carrying
    obtain ⟨result, carry, ties, applied⟩ := Arith.exists_ties s.dialect carrying x y m.v
    have raised : (op.apply s.dialect x y m.v)[flag] = carry := by
      rw [applied, Table.getElem_set_self]
    rw [raised]
    refine ⟨fun other => ?_, result, ties, fun _ _ ties' => ties.unique ties'⟩
    have placed : (op.apply s.dialect x y m.v)[x] = result := by
      rw [applied, Table.getElem_set_ne _ _ other, Table.getElem_set_self]
    rw [placed]
    exact ties

/-- A machine whose flag register and register 1 hold numbers that a sum has no room for. -/
def brimful : Machine :=
  { empty with v := ((Table.fill 0).set 1 0x90).set flag 0xFF }

theorem arith_exact_brimful :
    let s : Setup := { dialect := { vfReset := true } }
    let sum := (brimful.execute s 0x81F4).machine.v
    let difference := (brimful.execute s 0x8F15).machine.v
    let union := (brimful.execute s 0x81F1).machine.v
    let copied := (brimful.execute s 0x81F0).machine.v
    ((1 : Nibble) ≠ flag ∧ (2 : Nibble) ≠ 1 ∧ (2 : Nibble) ≠ flag ∧
        Arith.add.carries = true ∧ Arith.sub.carries = true) ∧
      sum[(1 : Nibble)].toNat + 256 * sum[flag].toNat = 0x90 + 0xFF ∧ sum[(2 : Nibble)] = 0 ∧
      difference[flag] = 1 ∧ union[(1 : Nibble)] = 0x90 ∧ union[flag] = 0 ∧
      copied[(1 : Nibble)] = 0xFF ∧ copied[flag] = 0xFF := by
  intro s sum difference union copied
  have other : (1 : Nibble) ≠ flag := by decide
  have low : brimful.v[(1 : Nibble)] = 0x90 := by decide
  have high : brimful.v[flag] = 0xFF := by decide
  refine ⟨⟨other, by decide, by decide, rfl, rfl⟩, ?sum, ?kept, ?difference, ?bytewise⟩
  case sum =>
    obtain ⟨-, -, -, -, -, -, carrying⟩ := arith_exact s brimful .add 1 flag
    obtain ⟨-, equation⟩ := (carrying rfl).1 other
    rw [low, high] at equation
    exact Int.ofNat.inj equation
  case kept =>
    obtain ⟨-, -, -, others, -⟩ := arith_exact s brimful .add 1 flag
    exact (others 2 (by decide) (by decide)).trans (by decide)
  case difference =>
    obtain ⟨-, -, -, -, -, -, carrying⟩ := arith_exact s brimful .sub flag 1
    obtain ⟨-, result, -, unique⟩ := carrying rfl
    rw [low, high] at unique
    exact (unique 0x6F 1 ⟨by decide, by decide⟩).2.symm
  case bytewise =>
    obtain ⟨-, -, -, -, -, bitwise, -⟩ := arith_exact s brimful .or 1 flag
    obtain ⟨-, -, -, -, copy, -⟩ := arith_exact s brimful .copy 1 flag
    obtain ⟨target, cleared⟩ := bitwise _ rfl
    obtain ⟨source, held⟩ := copy rfl
    exact ⟨target.trans (by decide), cleared other, source.trans high, (held other).trans high⟩

end Machine

end Cosmac
