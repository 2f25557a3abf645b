import Cosmac.Proofs.Plain.Machine

/-!
# The numbers that a machine holds

`Plain.ofMachine` forgets the bounds that the types of a machine carry. Each part of the plain
machine, started on such an image, ends without a breach on the image of what the same part of the
machine comes to; here for everything that reads or writes registers and keys.
-/

namespace Cosmac

open Checked

namespace Plain

/-- One row of a display. -/
def ofRow (row : Table 6 Bool) : Array Bool :=
  row.image fun on => on

/-- The numbers that a machine holds. -/
def ofMachine (m : Machine) : Plain where
  memory := m.memory.image BitVec.toNat
  display := m.display.rows.image ofRow
  v := m.v.image BitVec.toNat
  i := m.i.toNat
  pc := m.pc.toNat
  sp := m.sp
  stack := m.stack.image BitVec.toNat
  delay := m.delay.toNat
  sound := m.sound.toNat
  keys := m.keys.image fun down => down
  dirty := m.dirty
  crashed := m.crashed
  warned := m.warned
  drawn := m.drawn
  counters := m.counters

/-- An access that succeeds hands its result on. -/
theorem bind_ok {α β : Type} (a : α) (f : α → Except Breach β) : (Except.ok a >>= f) = f a := rfl

/-- Numbers tell words apart. -/
theorem beq_toNat {w : Nat} (a b : BitVec w) : (a.toNat == b.toNat) = (a == b) := by
  rw [Bool.eq_iff_iff, beq_iff_eq, beq_iff_eq, BitVec.toNat_inj]

variable (m : Machine)

theorem here_ofMachine : (ofMachine m).here = m.here.toNat := by
  have := m.pc.isLt
  simp only [here, ofMachine, Machine.here, Machine.instructionSize, BitVec.toNat_sub,
    BitVec.reduceToNat]
  omega

theorem site_ofMachine : (ofMachine m).site = m.here := by
  rw [site, here_ofMachine, BitVec.ofNat_toNat, BitVec.setWidth_eq]

/-- Reading a register is in range and delivers its byte. -/
theorem reg_ofMachine (x : Nibble) : (ofMachine m).reg x.toNat = .ok m.v[x].toNat :=
  Table.load_image BitVec.toNat m.v x

/-- Writing a register is in range and leaves the image of the machine with that byte. -/
theorem setReg_ofMachine (x : Nibble) (b : Byte) :
    (ofMachine m).setReg x.toNat b.toNat = .ok (ofMachine (m.setReg x b)) := by
  unfold setReg
  simp only [ofMachine, Table.store_image m.v x b b.isLt, bind_ok]
  rfl

/-- The cell `k` behind the index, around the end of memory. -/
theorem cell_ofMachine (k : Nat) :
    ((ofMachine m).i + k) % 4096 = (m.i + BitVec.ofNat 12 k).toNat := by
  simp [ofMachine]

/-- Reading memory from the index on wraps around and is always in range. -/
theorem load_cell_ofMachine (k : Nat) :
    load (ofMachine m).memory (((ofMachine m).i + k) % 4096 : Nat) =
      .ok m.memory[m.i + BitVec.ofNat 12 k].toNat := by
  rw [cell_ofMachine]
  exact Table.load_image BitVec.toNat m.memory _

/-- The key that a register names is looked up by its low digit. -/
theorem keyDown_ofMachine (x : Nibble) :
    (ofMachine m).keyDown x.toNat = .ok m.keys[m.v[x].setWidth 4] := by
  have key : m.v[x].toNat % 16 = (m.v[x].setWidth 4).toNat := by simp
  rw [keyDown, reg_ofMachine, bind_ok, key]
  exact Table.load_image _ m.keys _

/-- A condition holds on both sides or on neither. -/
theorem holds_ofMachine (c : Condition) : (ofMachine m).holds c = .ok (m.holds c) := by
  cases c <;> simp only [holds, reg_ofMachine, keyDown_ofMachine, bind_ok, bne, beq_toNat] <;> rfl

/-- A skip comes to the same on the plain side. -/
theorem skipIf_ofMachine (condition : Bool) :
    (ofMachine m).skipIf condition = ofMachine (if condition then
        { m with
          pc := m.pc + Machine.instructionSize
          counters := { m.counters with skips := m.counters.skips + 1 } }
      else m) := by
  cases condition
  · rfl
  · rfl

/-! ## Two registers -/

/-- A result and its flag are written in the same order: the flag last. -/
theorem setFlagged_ofMachine (x : Nibble) {n : Nat} (result : Byte) (h : n = result.toNat)
    (flag : Bool) :
    (ofMachine m).setFlagged x.toNat n flag = .ok (ofMachine
      { m with v := (m.v.set x result).set Machine.flag (if flag then 1 else 0) }) := by
  have raised : flag.toNat = (if flag then 1 else 0 : Byte).toNat := by
    cases flag <;> rfl
  rw [setFlagged, h, setReg_ofMachine, bind_ok, raised]
  exact setReg_ofMachine _ Machine.flag _

/-- A flag that is written on a condition is written alike. -/
theorem setFlagIf_ofMachine (condition : Bool) (b : Byte) :
    (ofMachine m).setFlagIf condition b.toNat =
      .ok (ofMachine { m with v := if condition then m.v.set Machine.flag b else m.v }) := by
  cases condition with
  | true => exact setReg_ofMachine m Machine.flag b
  | false => rfl

/-- A bitwise operation comes to the same, with the flag reset first where the dialect says so. -/
theorem bitwise_ofMachine (d : Dialect) {f : Nat → Nat → Nat} {g : Byte → Byte → Byte}
    (same : ∀ a b, f a.toNat b.toNat = (g a b).toNat) (x y : Nibble) :
    let v := if d.vfReset then m.v.set Machine.flag 0 else m.v
    (ofMachine m).bitwise d f x.toNat y.toNat =
      .ok (ofMachine { m with v := v.set x (g v[x] v[y]) }) := by
  intro v
  have reset : (ofMachine m).setFlagIf d.vfReset 0 = .ok (ofMachine { m with v }) :=
    setFlagIf_ofMachine m d.vfReset 0
  rw [bitwise, reset, bind_ok, reg_ofMachine, bind_ok, reg_ofMachine, bind_ok, same]
  exact setReg_ofMachine _ x _

/-- Every arithmetic instruction comes to the same on the plain side. -/
theorem arith_ofMachine (d : Dialect) (op : Arith) (x y : Nibble) :
    (ofMachine m).arith d op x.toNat y.toNat =
      .ok (ofMachine { m with v := op.apply d x y m.v }) := by
  have source : (ofMachine m).reg (if d.shifting then y.toNat else x.toNat) =
      .ok (if d.shifting then m.v[y] else m.v[x]).toNat := by
    cases d.shifting with
    | true => exact reg_ofMachine m y
    | false => exact reg_ofMachine m x
  have difference (a b : Byte) : (((a.toNat : Int) - b.toNat) % 256).toNat = (a - b).toNat := by
    have := b.isLt
    rw [BitVec.toNat_sub]
    omega
  have lowBit (b : Byte) : b.getLsbD 0 = decide (b.toNat % 2 = 1) := by
    rw [BitVec.getLsbD, Nat.testBit_zero]
  have highBit (b : Byte) : b.msb = decide (128 ≤ b.toNat) := BitVec.msb_eq_decide b
  cases op with
  | copy =>
    rw [arith, reg_ofMachine, bind_ok]
    exact setReg_ofMachine m x _
  | or => exact bitwise_ofMachine m d (fun a b => (BitVec.toNat_or a b).symm) x y
  | and => exact bitwise_ofMachine m d (fun a b => (BitVec.toNat_and a b).symm) x y
  | xor => exact bitwise_ofMachine m d (fun a b => (BitVec.toNat_xor a b).symm) x y
  | add =>
    rw [arith, reg_ofMachine, bind_ok, reg_ofMachine, bind_ok]
    exact setFlagged_ofMachine m x _ (BitVec.toNat_add ..).symm _
  | sub =>
    rw [arith, reg_ofMachine, bind_ok, reg_ofMachine, bind_ok,
      setFlagged_ofMachine m x _ (difference m.v[x] m.v[y])]
    simp [Arith.apply]
  | subFrom =>
    rw [arith, reg_ofMachine, bind_ok, reg_ofMachine, bind_ok,
      setFlagged_ofMachine m x _ (difference m.v[y] m.v[x])]
    simp [Arith.apply]
  | shiftRight =>
    rw [arith, source, bind_ok, setFlagged_ofMachine m x _ (BitVec.toNat_ushiftRight ..).symm,
      ← lowBit]
    rfl
  | shiftLeft =>
    rw [arith, source, bind_ok, setFlagged_ofMachine m x _ (BitVec.toNat_shiftLeft ..).symm,
      ← highBit]
    rfl

end Plain

end Cosmac
