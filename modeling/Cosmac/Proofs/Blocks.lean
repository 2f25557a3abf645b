import Cosmac.Proofs.Footprints

/-!
# Blocks of memory

The block transfers copy the registers up to some `x` to memory or from it, and the decimal digits
of a register make a block of three. A block starts at the index and goes on from the end of memory
at its start, each byte at an address of its own, since no block is longer than memory. So what a
block holds is said without the order of the copies (`Lays`), what was stored can be fetched back,
and what was fetched can be stored back.

In some dialects a transfer leaves the index behind its block. There the next block that is stored
is the continuation of the one before.
-/

namespace Cosmac

namespace Machine

/-- The address `k` places after the index, around the end of memory. -/
def place (m : Machine) (k : Nat) : Addr :=
  BitVec.ofNat 12 ((m.i.toNat + k) % 4096)

/-- The registers up to `x`. -/
def upTo (m : Machine) (x : Nibble) : List Byte :=
  (List.range (x.toNat + 1)).map fun k => m.v[BitVec.ofNat 4 k]

/-- In this memory there is a block of bytes at the index of the machine, and everything else is as
the machine has it. -/
structure Lays (m : Machine) (bytes : List Byte) (memory : Table 12 Byte) : Prop where
  inside : ∀ k (within : k < bytes.length), memory[m.place k] = bytes[k]
  outside : ∀ a : Addr, (∀ k < bytes.length, a ≠ m.place k) → memory[a] = m.memory[a]

variable {s : Setup} {m : Machine} {x y : Nibble}

theorem place_eq (m : Machine) (k : Nat) : m.place k = m.i + BitVec.ofNat 12 k :=
  Addr.ofNat_toNat_add m.i k

/-- **A block that is written lies at the index**, if memory has room for it. -/
theorem lays_write {bytes : List Byte} (fits : bytes.length ≤ 4096) :
    m.Lays bytes (m.memory.write m.i bytes) where
  inside := fun k within => by
    rw [place_eq]
    exact Table.getElem_write_inside m.memory m.i fits within
  outside := fun a apart => by
    simp only [place_eq] at apart
    exact Table.getElem_write_of_outside m.memory m.i bytes apart

@[simp] theorem length_upTo (m : Machine) (x : Nibble) : (m.upTo x).length = x.toNat + 1 := by
  simp [upTo]

/-- The registers that are stored are those from the first up to the operand. -/
theorem read_eq_upTo (m : Machine) (x : Nibble) : m.v.read 0 (x.toNat + 1) = m.upTo x := by
  apply List.ext_getElem
  · simp
  · intro k _ _
    simp [upTo, Table.getElem_read]

theorem upTo_congr {m' : Machine} (same : m'.v = m.v) (x : Nibble) : m'.upTo x = m.upTo x := by
  rw [upTo, upTo, same]

/-! ## The transfers -/

/-- Where a block transfer leaves the index. -/
theorem indexAfter_eq (d : Dialect) (m : Machine) (x : Nibble) :
    indexAfter d m.i x = if d.memory then m.place (x.toNat + 1) else m.i := by
  rw [indexAfter, place_eq]

/-- A store writes the registers up to `x` to the index. -/
theorem store_block (s : Setup) (m : Machine) (x : Nibble) :
    let reply := m.execute s (Instruction.store x).encode
    reply.fault? = none ∧ reply.machine.memory = m.memory.write m.i (m.upTo x) ∧
      reply.machine.v = m.v ∧
      reply.machine.i = if s.dialect.memory then m.place (x.toNat + 1) else m.i := by
  intro reply
  have done : reply = ⟨_, [], none⟩ := execute_encode rfl
  rw [done, ← read_eq_upTo, ← indexAfter_eq]
  exact ⟨rfl, rfl, rfl, rfl⟩

/-- A fetch takes the registers up to `x` from the index, and leaves the others. -/
theorem fetch_block (s : Setup) (m : Machine) (x : Nibble) :
    let reply := m.execute s (Instruction.fetch x).encode
    reply.fault? = none ∧ reply.machine.memory = m.memory ∧
      reply.machine.upTo x = m.memory.read m.i (x.toNat + 1) ∧
      (∀ r, x < r → reply.machine.v[r] = m.v[r]) ∧
      reply.machine.i = if s.dialect.memory then m.place (x.toNat + 1) else m.i := by
  intro reply
  have done : reply = ⟨_, [], none⟩ := execute_encode rfl
  have length : (m.memory.read m.i (x.toNat + 1)).length = x.toNat + 1 := Table.length_read ..
  rw [done, ← read_eq_upTo, ← indexAfter_eq]
  refine ⟨rfl, rfl, ?_, fun r past => ?_, rfl⟩
  -- the registers are written as memory is, in a block that starts at register zero
  · have fits : (m.memory.read m.i (x.toNat + 1)).length ≤ 2 ^ 4 := by omega
    have back := Table.read_write m.v 0 fits
    rw [length] at back
    exact back
  · refine Table.getElem_write_of_outside m.v 0 _ ?_
    rw [length]
    exact ne_of_not_le (BitVec.not_le.mpr past)

/-! ## Round trips -/

/-- A block that was written to memory at the index is what is fetched. -/
theorem upTo_fetch_of_written {bytes : List Byte} {memory : Table 12 Byte}
    (length : bytes.length = x.toNat + 1) (written : m.memory = memory.write m.i bytes) :
    (m.execute s (Instruction.fetch x).encode).machine.upTo x = bytes := by
  obtain ⟨-, -, fetched, -⟩ := fetch_block s m x
  have fits : bytes.length ≤ 2 ^ 12 := by omega
  rw [fetched, written, ← length]
  exact Table.read_write memory m.i fits

/-- Registers that hold what memory holds at the index are stored without effect. -/
theorem memory_store_of_read (same : m.upTo x = m.memory.read m.i (x.toNat + 1)) :
    (m.execute s (Instruction.store x).encode).machine.memory = m.memory := by
  obtain ⟨-, stored, -⟩ := store_block s m x
  rw [stored, same]
  exact Table.write_read m.memory m.i (x.toNat + 1)

/-- **Where transfers move the index, the blocks of two stores are one.** -/
theorem store_store (moving : s.dialect.memory = true) (m : Machine) (x y : Nibble) :
    let first := (m.execute s (Instruction.store x).encode).machine
    let second := (first.execute s (Instruction.store y).encode).machine
    second.memory = m.memory.write m.i (m.upTo x ++ m.upTo y) ∧
      second.i = m.place (x.toNat + 1 + (y.toNat + 1)) := by
  intro first second
  obtain ⟨-, memory, registers, index⟩ := store_block s m x
  obtain ⟨-, memory', -, index'⟩ := store_block s first y
  rw [if_pos moving, place_eq] at index index'
  constructor
  · rw [Table.write_append, length_upTo, ← index, ← memory, ← upTo_congr registers y]
    exact memory'
  · rw [place_eq, BitVec.ofNat_add, ← BitVec.add_assoc, ← index]
    exact index'

/-! ## Decimal digits -/

/-- The three decimal digits of a byte make it up again. -/
theorem decimal_digits (b : Byte) :
    ∃ h t o : Byte, decimal b = [h, t, o] ∧ h.toNat ≤ 9 ∧ t.toNat ≤ 9 ∧ o.toNat ≤ 9 ∧
      100 * h.toNat + 10 * t.toNat + o.toNat = b.toNat := by
  have small := b.isLt
  have hundred : (100 : Byte).toNat = 100 := rfl
  have ten : (10 : Byte).toNat = 10 := rfl
  refine ⟨_, _, _, rfl, ?_⟩
  simp only [BitVec.toNat_umod, BitVec.toNat_udiv, hundred, ten]
  omega

/-- The digits of a register are written to the index, which stays. -/
theorem digits_block (s : Setup) (m : Machine) (x : Nibble) :
    let reply := m.execute s (Instruction.digits x).encode
    reply.fault? = none ∧ reply.machine.memory = m.memory.write m.i (decimal m.v[x]) ∧
      reply.machine.i = m.i := by
  intro reply
  have done : reply = ⟨_, [], none⟩ := execute_encode rfl
  rw [done]
  exact ⟨rfl, rfl, rfl⟩

/-! ## Both directions -/

/-- **What a block transfer or the digits put into memory can be taken back.** Whatever the state
is, also where a block goes on from the end of memory at its start:

* a store lays the registers up to `x` at the index and changes nothing else;
* once it was carried out, a fetch from the same index brings these registers back, whatever became
  of the registers in the meantime, and leaves the registers past `x` alone;
* once a fetch was carried out, a store to the same index leaves memory as it is;
* both leave the index or move it behind the block, as the dialect says, and where they move it two
  stores lay their blocks end to end;
* the decimal digits of a register are laid at the index, which stays, and a fetch takes them to the
  registers zero to two. -/
theorem blocks_round_trip (s : Setup) (m : Machine) (x : Nibble) :
    let store := (Instruction.store x).encode
    let fetch := (Instruction.fetch x).encode
    let stored := m.execute s store
    let fetched := m.execute s fetch
    let spelt := m.execute s (Instruction.digits x).encode
    let behind := if s.dialect.memory then m.place (x.toNat + 1) else m.i
    (stored.fault? = none ∧ fetched.fault? = none ∧ spelt.fault? = none) ∧
      m.Lays (m.upTo x) stored.machine.memory ∧
      (∀ later : Machine, later.memory = stored.machine.memory → later.i = m.i →
        let back := (later.execute s fetch).machine
        back.upTo x = m.upTo x ∧ ∀ r, x < r → back.v[r] = later.v[r]) ∧
      (∀ later : Machine, later.memory = fetched.machine.memory → later.v = fetched.machine.v →
        later.i = m.i → (later.execute s store).machine.memory = m.memory) ∧
      stored.machine.i = behind ∧ fetched.machine.i = behind ∧
      (s.dialect.memory = true → ∀ y : Nibble,
        let both := (stored.machine.execute s (Instruction.store y).encode).machine
        m.Lays (m.upTo x ++ m.upTo y) both.memory ∧
          both.i = m.place (x.toNat + 1 + (y.toNat + 1))) ∧
      ∃ h t o : Byte, h.toNat ≤ 9 ∧ t.toNat ≤ 9 ∧ o.toNat ≤ 9 ∧
        100 * h.toNat + 10 * t.toNat + o.toNat = m.v[x].toNat ∧
        m.Lays [h, t, o] spelt.machine.memory ∧ spelt.machine.i = m.i ∧
        (spelt.machine.execute s (Instruction.fetch 2).encode).machine.upTo 2 = [h, t, o] := by
  intro store fetch stored fetched spelt behind
  obtain ⟨storeDone, storeMemory, -, storeIndex⟩ := store_block s m x
  obtain ⟨fetchDone, fetchMemory, fetchRegisters, -, fetchIndex⟩ := fetch_block s m x
  obtain ⟨spellDone, spellMemory, spellIndex⟩ := digits_block s m x
  obtain ⟨h, t, o, digits, hundreds, tens, ones, sum⟩ := decimal_digits m.v[x]
  rw [digits] at spellMemory
  refine ⟨⟨storeDone, fetchDone, spellDone⟩, ?laid, ?back, ?kept, storeIndex, fetchIndex, ?joined,
    h, t, o, hundreds, tens, ones, sum, ?spelt, spellIndex, ?digits⟩
  case laid =>
    rw [storeMemory]
    exact lays_write (by rw [length_upTo]; omega)
  case back =>
    intro later memory index back
    obtain ⟨-, -, -, past, -⟩ := fetch_block s later x
    have written : later.memory = m.memory.write later.i (m.upTo x) := by
      rw [memory, index]
      exact storeMemory
    exact ⟨upTo_fetch_of_written (length_upTo m x) written, past⟩
  case kept =>
    intro later memory registers index
    have unchanged : later.memory = m.memory := memory.trans fetchMemory
    rw [← unchanged]
    refine memory_store_of_read ?_
    rw [upTo_congr registers, unchanged, index]
    exact fetchRegisters
  case joined =>
    intro moving y both
    obtain ⟨memory, index⟩ := store_store moving m x y
    refine ⟨?_, index⟩
    rw [memory]
    exact lays_write (by rw [List.length_append, length_upTo, length_upTo]; omega)
  case spelt =>
    rw [spellMemory]
    exact lays_write (by simp)
  case digits =>
    have written : spelt.machine.memory = m.memory.write spelt.machine.i [h, t, o] := by
      rw [spellIndex]
      exact spellMemory
    exact upTo_fetch_of_written rfl written

theorem blocks_round_trip_straddling :
    let store := (Instruction.store 2).encode
    let fetch := (Instruction.fetch 2).encode
    let stored := (straddling.execute movingIndex store).machine
    let fetched := (straddling.execute movingIndex fetch).machine
    let cleared : Machine := { stored with v := Table.fill 1, i := 0xFFE }
    let returned : Machine := { fetched with i := 0xFFE }
    let back := (cleared.execute movingIndex fetch).machine
    let both := (stored.execute movingIndex (Instruction.store 1).encode).machine
    let spelt := (straddling.execute movingIndex (Instruction.digits 2).encode).machine
    stored.memory[(0 : Addr)] = 9 ∧
      back.upTo 2 = [7, 7, 9] ∧ (2 : Nibble) < 3 ∧ back.v[(3 : Nibble)] = 1 ∧
      (returned.execute movingIndex store).machine.memory = straddling.memory ∧
      movingIndex.dialect.memory = true ∧ both.memory[(1 : Addr)] = 7 ∧ both.i = 3 ∧
      (spelt.execute movingIndex fetch).machine.upTo 2 = [0, 0, 9] := by
  have registers : straddling.upTo 2 = [7, 7, 9] := by decide +kernel
  have nine : (straddling.v[(2 : Nibble)]).toNat = 9 := by decide +kernel
  obtain ⟨-, laid, back, kept, -, -, joined, h, t, o, -, -, ones, sum, -, -, taken⟩ :=
    blocks_round_trip movingIndex straddling 2
  obtain ⟨block, index⟩ := joined rfl 1
  have digits : [h, t, o] = [0, 0, 9] := by
    simp only [List.cons.injEq, and_true]
    bv_omega
  obtain ⟨again, past⟩ := back
    { (straddling.execute movingIndex (Instruction.store 2).encode).machine with
      v := Table.fill 1, i := 0xFFE } rfl rfl
  exact ⟨laid.inside 2 (by decide), again.trans registers, by decide, past 3 (by decide),
    kept _ rfl rfl rfl, rfl, block.inside 3 (by decide), index, taken.trans digits⟩

end Machine

end Cosmac
