import Cosmac.Proofs.Plain.Drawing

/-!
# Instructions on plain machines

Every instruction that the plain machine carries out on the image of a machine stays within the
bounds of the arrays and comes to the image of what the instruction comes to on the machine. The
loops over blocks of memory are taken from any register on, since the machine moves a block as a
whole. The one thing asked of the machine is that its stack is not deeper than its room.
-/

namespace Cosmac

open Checked

namespace Plain

variable (s : Setup) (m : Machine)

/-! ## Blocks of memory -/

/-- Writing memory from the index on wraps around and is always in range. -/
theorem setCell_ofMachine (k : Nat) (b : Byte) :
    (ofMachine m).setCell k b.toNat =
      .ok (ofMachine { m with memory := m.memory.set (m.i + BitVec.ofNat 12 k) b }) := by
  have stored := Table.store_image m.memory (m.i + BitVec.ofNat 12 k) b b.isLt
  rw [← cell_ofMachine] at stored
  unfold setCell
  show (store 256 (m.memory.image BitVec.toNat) _ _ >>= _) = _
  rw [stored, bind_ok]
  rfl

/-- Counting addresses, or registers, on by one more. -/
theorem add_ofNat_succ {w : Nat} (a : BitVec w) (k : Nat) :
    a + BitVec.ofNat w (k + 1) = a + BitVec.ofNat w k + 1 := by
  rw [BitVec.ofNat_add, BitVec.add_assoc]
  rfl

/-- Registers are stored one by one, as the run of cells that they are written to. -/
theorem storeBlock_ofMachine (k n : Nat) (fits : k + n ≤ 16) :
    (ofMachine m).storeBlock (List.range' k n) = .ok (ofMachine { m with
      memory := m.memory.write (m.i + BitVec.ofNat 12 k) (m.v.read (BitVec.ofNat 4 k) n) }) := by
  induction n generalizing m k with
  | zero => rfl
  | succ n ih =>
    have content := reg_ofMachine m (BitVec.ofNat 4 k)
    rw [BitVec.toNat_ofNat, Nat.mod_eq_of_lt (by omega)] at content
    rw [List.range'_succ, storeBlock, content, bind_ok, setCell_ofMachine, bind_ok,
      ih _ _ (by omega), add_ofNat_succ, BitVec.ofNat_add]
    rfl

/-- Registers are fetched one by one, as the run of cells that they are read from. -/
theorem fetchBlock_ofMachine (k n : Nat) (fits : k + n ≤ 16) :
    (ofMachine m).fetchBlock (List.range' k n) = .ok (ofMachine { m with
      v := m.v.write (BitVec.ofNat 4 k) (m.memory.read (m.i + BitVec.ofNat 12 k) n) }) := by
  induction n generalizing m k with
  | zero => rfl
  | succ n ih =>
    have set := setReg_ofMachine m (BitVec.ofNat 4 k) m.memory[m.i + BitVec.ofNat 12 k]
    rw [BitVec.toNat_ofNat, Nat.mod_eq_of_lt (by omega)] at set
    rw [List.range'_succ, fetchBlock, load_cell_ofMachine, bind_ok, set, bind_ok,
      ih _ _ (by omega), add_ofNat_succ, BitVec.ofNat_add]
    rfl

/-- The index moves alike, around the end of memory too. -/
theorem moveIndex_ofMachine (d : Dialect) (x : Nibble) :
    (ofMachine m).moveIndex d x.toNat =
      ofMachine { m with i := Machine.indexAfter d m.i x } := by
  unfold moveIndex Machine.indexAfter
  split
  · simp [ofMachine, Nat.add_assoc]
  · rfl

/-! ## The stack -/

/-- A depth that is not full names the first free slot. -/
theorem toNat_slot {sp : Nat} (free : sp < Machine.stackSize) : (BitVec.ofNat 4 sp).toNat = sp :=
  Nat.mod_eq_of_lt free

/-- The slot below the depth is in range if the stack is not empty. -/
theorem load_top_ofMachine (room : m.sp ≤ Machine.stackSize) (used : m.sp ≠ 0) :
    load (ofMachine m).stack ((ofMachine m).sp - 1 : Int) =
      .ok m.stack[BitVec.ofNat 4 (m.sp - 1)].toNat := by
  have top : (m.sp - 1 : Int) = (BitVec.ofNat 4 (m.sp - 1)).toNat := by
    rw [toNat_slot (Nat.lt_of_lt_of_le (Nat.sub_one_lt used) room)]
    omega
  show load (m.stack.image BitVec.toNat) (m.sp - 1 : Int) = _
  rw [top, Table.load_image]

/-- The slot at the depth is in range if the stack is not full. -/
theorem store_slot_ofMachine (free : m.sp < Machine.stackSize) :
    store 65536 (ofMachine m).stack (ofMachine m).sp (ofMachine m).pc =
      .ok ((m.stack.set (BitVec.ofNat 4 m.sp) m.pc).image BitVec.toNat) := by
  have fits : m.pc.toNat < 65536 := Nat.lt_trans m.pc.isLt (by decide)
  have stored := Table.store_image m.stack (BitVec.ofNat 4 m.sp) m.pc fits
  rwa [toNat_slot free] at stored

/-! ## Keys -/

/-- The lowest key that is down, by its number. -/
theorem least_of_lowestKey? {k : Nibble} (lowest : m.lowestKey? = some k) :
    m.keys[k] = true ∧ ∀ j < k.toNat, m.keys[BitVec.ofNat 4 j] = false := by
  rw [Machine.lowestKey?, Nibble.all, List.find?_map] at lowest
  obtain ⟨i, found, rfl⟩ := Option.map_eq_some_iff.mp lowest
  obtain ⟨down, inside, least⟩ := List.find?_range_eq_some.mp found
  rw [BitVec.toNat_ofNat, Nat.mod_eq_of_lt (List.mem_range.mp inside)]
  exact ⟨down, fun j hj => by simpa using least j hj⟩

/-- The first key that is down is the lowest one. -/
theorem findIdx?_keys_ofMachine :
    ((ofMachine m).keys.findIdx? fun down => down) = m.lowestKey?.map BitVec.toNat := by
  cases lowest : m.lowestKey? with
  | none =>
    rw [Machine.lowestKey?, List.find?_eq_none] at lowest
    apply Array.findIdx?_eq_none_iff.mpr
    refine Table.forall_mem_image (P := (· = false)) (t := m.keys) fun k => ?_
    have up := lowest k (Nibble.mem_all k)
    simpa using up
  | some k =>
    obtain ⟨down, least⟩ := least_of_lowestKey? m lowest
    have inside : k.toNat < (ofMachine m).keys.size := by
      rw [ofMachine, Table.size_image]
      exact k.isLt
    apply Array.findIdx?_eq_some_iff_getElem.mpr
    refine ⟨inside, ?_, fun j hj => ?_⟩
    · exact (Table.getElem_image _ m.keys inside).trans (by simpa using down)
    · rw [Bool.not_eq_true]
      exact (Table.getElem_image _ m.keys (Nat.lt_trans hj inside)).trans (least j hj)

/-! ## Instructions -/

theorem blank_ofMachine :
    ((ofMachine m).display.map fun row => row.map fun _ => false) =
      Display.blank.rows.image ofRow := by
  show ((m.display.rows.image ofRow).map fun row => row.map fun _ => false) = _
  rw [Table.map_image]
  apply Table.image_congr
  intro r
  rw [ofRow, Table.map_image]
  apply Table.image_congr
  intro c
  exact (Display.getElem_blank ⟨r, c⟩).symm

/-- The target of a jump with an offset comes to the same, with its register in range. -/
theorem offsetTarget_ofMachine (d : Dialect) (nnn : Addr) :
    (ofMachine m).offsetTarget d nnn.toNat = .ok (
      if d.jumping then
        (nnn.setWidth 8).setWidth 12 + (m.v[(nnn.extractLsb' 8 4 : Nibble)]).setWidth 12
      else nnn + (m.v[(0 : Nibble)]).setWidth 12).toNat := by
  unfold offsetTarget
  split
  case isTrue =>
    have top : nnn.toNat / 256 = (nnn.extractLsb' 8 4).toNat := by
      have := nnn.isLt
      simp only [BitVec.extractLsb'_toNat, Nat.shiftRight_eq_div_pow]
      omega
    rw [top, reg_ofMachine, bind_ok]
    simp
  case isFalse =>
    have base : (ofMachine m).reg 0 = .ok m.v[(0 : Nibble)].toNat := reg_ofMachine m 0
    rw [base, bind_ok]
    simp

/-- Waiting for a key comes to the same, whether or not one is down. -/
theorem awaitKey_ofMachine (x : Nibble) :
    (ofMachine m).perform s (.awaitKey x) = .ok ((m.perform s (.awaitKey x)).view ofMachine) := by
  rw [perform, findIdx?_keys_ofMachine, Machine.perform]
  cases m.lowestKey? with
  | none =>
    simp only [Option.map_none, here_ofMachine]
    rfl
  | some k =>
    have number : k.toNat = (k.setWidth 8).toNat := by
      rw [BitVec.toNat_setWidth, Nat.mod_eq_of_lt (Nat.lt_trans k.isLt (by decide))]
    have set : (ofMachine m).setReg x.toNat k.toNat = _ :=
      number ▸ setReg_ofMachine m x (k.setWidth 8)
    have released : put (ofMachine m).keys k.toNat false = _ :=
      Table.put_image (fun down => down) m.keys k false
    simp only [Option.map_some]
    rw [set, bind_ok]
    show done (put (ofMachine m).keys _ _ >>= _) = _
    rw [released, bind_ok]
    rfl

/-- The three digits of a register are stored alike. -/
theorem digits_ofMachine (x : Nibble) :
    (ofMachine m).perform s (.digits x) = .ok ((m.perform s (.digits x)).view ofMachine) := by
  have hundreds : m.v[x].toNat / 100 = (m.v[x] / 100).toNat :=
    (BitVec.toNat_udiv (y := (100 : Byte))).symm
  have tens : m.v[x].toNat / 10 % 10 = (m.v[x] / 10 % 10).toNat := by
    rw [BitVec.toNat_umod, BitVec.toNat_udiv]
    rfl
  have ones : m.v[x].toNat % 10 = (m.v[x] % 10).toNat :=
    (BitVec.toNat_umod (y := (10 : Byte))).symm
  have written (a b c : Byte) : m.memory.write m.i [a, b, c] =
      ((m.memory.set (m.i + BitVec.ofNat 12 0) a).set (m.i + BitVec.ofNat 12 1) b).set
        (m.i + BitVec.ofNat 12 2) c := by
    simp [Table.write, BitVec.add_assoc]
  rw [perform, reg_ofMachine, bind_ok, hundreds, tens, ones, setCell_ofMachine, bind_ok,
    setCell_ofMachine, bind_ok, setCell_ofMachine, bind_ok, Machine.perform, Machine.decimal,
    written]
  rfl

/-- **An instruction makes no access that goes wrong**, and comes to what it comes to on the
machine. -/
theorem perform_ofMachine (i : Instruction) (room : m.sp ≤ Machine.stackSize) :
    (ofMachine m).perform s i = .ok ((m.perform s i).view ofMachine) := by
  have start : m.i + BitVec.ofNat 12 0 = m.i := BitVec.add_zero _
  cases i with
  | clear =>
    rw [perform, blank_ofMachine]
    rfl
  | ret =>
    rw [perform, Machine.perform, site_ofMachine]
    show (if m.sp = 0 then _ else _) = _
    split
    · rfl
    case isFalse used =>
      rw [load_top_ofMachine m room used, bind_ok]
      rfl
  | jump nnn =>
    rw [perform, here_ofMachine, beq_toNat]
    rfl
  | call nnn =>
    rw [perform, Machine.perform, site_ofMachine]
    show (if Machine.stackSize ≤ m.sp then _ else _) = _
    split
    · rfl
    case isFalse full =>
      rw [store_slot_ofMachine m (Nat.lt_of_not_le full), bind_ok]
      rfl
  | skip c =>
    rw [perform, holds_ofMachine, bind_ok, skipIf_ofMachine, Machine.perform]
    cases m.holds c <;> rfl
  | load x kk =>
    rw [perform, setReg_ofMachine]
    rfl
  | add x kk =>
    rw [perform, reg_ofMachine, bind_ok]
    exact congrArg done (setReg_ofMachine m x (m.v[x] + kk))
  | arith op x y =>
    rw [perform, arith_ofMachine]
    rfl
  | setIndex nnn => rfl
  | jumpOffset nnn =>
    rw [perform, offsetTarget_ofMachine, bind_ok]
    rfl
  | random x kk =>
    have drawn := setReg_ofMachine m x (s.random m.drawn &&& kk)
    rw [BitVec.toNat_and] at drawn
    rw [perform]
    show done (setReg _ _ ((s.random m.drawn).toNat &&& kk.toNat) >>= _) = _
    rw [drawn, bind_ok]
    rfl
  | draw x y n =>
    rw [perform, draw_ofMachine]
    rfl
  | readDelay x =>
    exact congrArg done (setReg_ofMachine m x m.delay)
  | awaitKey x => exact awaitKey_ofMachine s m x
  | setDelay x =>
    rw [perform, reg_ofMachine, bind_ok, Nat.mod_eq_of_lt (m.v[x]).isLt]
    rfl
  | setSound x =>
    rw [perform, reg_ofMachine, bind_ok, Nat.mod_eq_of_lt (m.v[x]).isLt]
    rfl
  | addIndex x =>
    have moved : (m.i.toNat + m.v[x].toNat) % 4096 = (m.i + m.v[x].setWidth 12).toNat := by
      simp
    rw [perform, reg_ofMachine, bind_ok]
    show done (.ok { ofMachine m with i := (m.i.toNat + m.v[x].toNat) % 4096 }) = _
    rw [moved]
    rfl
  | glyph x =>
    have moved : m.v[x].toNat * 5 % 4096 = (m.v[x].setWidth 12 * 5).toNat := by
      simp
    rw [perform, reg_ofMachine, bind_ok, moved]
    rfl
  | digits x => exact digits_ofMachine s m x
  | store x =>
    rw [perform, storeBlock_ofMachine m 0 _ (by omega), bind_ok, start]
    simp only [moveIndex_ofMachine]
    rfl
  | fetch x =>
    rw [perform, fetchBlock_ofMachine m 0 _ (by omega), bind_ok, start]
    simp only [moveIndex_ofMachine]
    rfl

end Plain

end Cosmac
