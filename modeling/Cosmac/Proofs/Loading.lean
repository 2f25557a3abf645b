import Cosmac.Machine.Program
import Mathlib.Data.List.Basic

/-!
# Loading a program

A program is handed over as bytes, in a block that may still change or one that may not, or as an
array of numbers whose elements all have one type (`Program.Form`). What is done with it depends on
the type of the elements: bytes are taken as they are, other whole numbers are checked first, and
then all of them are cut down to eight bits (`Form.bytes?`). The cut never loses anything
(`toBytes?_program`), so what a machine is given depends on the numbers alone.

Main statement: which forms are taken, what a machine holds that took one, and why the others are
refused (`boot_form`).
-/

namespace Cosmac

namespace Program

/-- A type of whole numbers of a number of bits, with a sign or without. -/
structure Whole where
  signed : Bool
  bits : Nat
  deriving DecidableEq, Repr

/-- The type of a byte. -/
def Whole.byte : Whole := ⟨false, 8⟩

/-- The number is one of the type. -/
def Whole.Has (t : Whole) (n : Int) : Prop :=
  if t.signed then -(Nat.pow 2 (t.bits - 1) : Int) ≤ n ∧ n < Nat.pow 2 (t.bits - 1)
  else 0 ≤ n ∧ n < Nat.pow 2 t.bits

instance (t : Whole) (n : Int) : Decidable (t.Has n) := by
  unfold Whole.Has
  infer_instance

/-- A program as it is handed over. -/
inductive Form where
  | bytes (content : List Byte)
  /-- Bytes that may still change. -/
  | byteArray (content : List Byte)
  /-- An array of whole numbers of one type. -/
  | array (t : Whole) (values : List Int) (fits : ∀ n ∈ values, t.Has n)
  /-- An array of elements of another type, which goes by a name. -/
  | other (elementType : String) (size : Nat)

namespace Form

/-- The program of a form. -/
def program : Form → Program
  | bytes content => .bytes content
  | byteArray content => .bytes content
  | array _ values _ => .integers values
  | other elementType _ => .other elementType

/-- The number of bytes or elements. -/
def size : Form → Nat
  | bytes content => content.length
  | byteArray content => content.length
  | array _ values _ => values.length
  | other _ size => size

/-- The whole numbers in their order. -/
def numbers : Form → List Int
  | bytes content => content.map fun b => b.toNat
  | byteArray content => content.map fun b => b.toNat
  | array _ values _ => values
  | other _ _ => []

/-- All elements are whole numbers, and each of them fits a byte. -/
def InRange : Form → Prop
  | bytes _ => True
  | byteArray _ => True
  | array _ values _ => ∀ n ∈ values, 0 ≤ n ∧ n ≤ 255
  | other _ _ => False

/-- The bytes that are loaded. Numbers that are no bytes by their type are checked before they are
cut down to eight bits. -/
def bytes? : Form → Except Error (List Byte)
  | bytes content => .ok content
  | byteArray content => .ok content
  | array t values _ =>
    if t ≠ .byte ∧ ∃ n ∈ values, n < 0 ∨ 255 < n then .error .outOfRange
    else .ok (values.map (BitVec.ofInt 8))
  | other elementType _ => .error (.notIntegers elementType)

end Form

variable {form other : Form} {content : List Byte}

/-- A number that fits a byte is kept by it. -/
theorem toNat_ofInt_of_range {n : Int} (range : 0 ≤ n ∧ n ≤ 255) :
    ((BitVec.ofInt 8 n).toNat : Int) = n := by
  rw [BitVec.toNat_ofInt]
  omega

/-- Some number is out of range unless all are in it. -/
theorem exists_outside_iff {values : List Int} :
    (∃ n ∈ values, n < 0 ∨ 255 < n) ↔ ¬ ∀ n ∈ values, 0 ≤ n ∧ n ≤ 255 := by
  simp only [not_forall, exists_prop, not_and_or, Int.not_le]

/-- The type of bytes has no number that does not fit a byte. -/
theorem ne_byte_of_outside {t : Whole} {values : List Int} (fits : ∀ n ∈ values, t.Has n)
    (outside : ∃ n ∈ values, n < 0 ∨ 255 < n) : t ≠ .byte := by
  rintro rfl
  obtain ⟨n, listed, bad⟩ := outside
  have bounds : 0 ≤ n ∧ n < 256 := fits n listed
  omega

/-- **Cutting numbers down to bytes loses nothing**: those that would not fit have been refused
before, or their type has none. -/
theorem toBytes?_program (form : Form) : form.program.toBytes? = form.bytes? := by
  cases form with
  | array t values fits =>
    simp only [Form.program, Form.bytes?, toBytes?, List.all_eq_true, decide_eq_true_eq]
    by_cases range : ∀ n ∈ values, 0 ≤ n ∧ n ≤ 255
    · rw [if_pos range, if_neg fun refused => exists_outside_iff.mp refused.2 range]
    · have outside := exists_outside_iff.mpr range
      rw [if_neg range, if_pos ⟨ne_byte_of_outside fits outside, outside⟩]
  | _ => rfl

/-- A form is refused for its elements exactly if they are no whole numbers or one does not fit. -/
theorem Form.bytes?_eq_error_iff {e : Error} : form.bytes? = .error e ↔
    (∃ elementType size, form = .other elementType size ∧ e = .notIntegers elementType) ∨
      ∃ t values fits, form = .array t values fits ∧ e = .outOfRange ∧
        ∃ n ∈ values, n < 0 ∨ 255 < n := by
  constructor
  · intro refused
    cases form with
    | array t values fits =>
      simp only [Form.bytes?] at refused
      split at refused
      case isTrue bad =>
        cases refused
        exact .inr ⟨t, values, fits, rfl, rfl, bad.2⟩
      case isFalse => cases refused
    | other elementType size =>
      cases refused
      exact .inl ⟨elementType, size, rfl, rfl⟩
    | _ => cases refused
  · rintro (⟨elementType, size, rfl, rfl⟩ | ⟨t, values, fits, rfl, rfl, outside⟩)
    · rfl
    · exact if_pos ⟨ne_byte_of_outside fits outside, outside⟩

/-- Bytes come of a form whose elements fit a byte, and they are its numbers. -/
theorem Form.bytes?_eq_ok (taken : form.bytes? = .ok content) :
    form.InRange ∧ form.numbers = (content.map fun b => (b.toNat : Int)) ∧
      form.size = content.length := by
  cases form with
  | array t values fits =>
    rw [← toBytes?_program] at taken
    simp only [Form.program, toBytes?, List.all_eq_true, decide_eq_true_eq] at taken
    by_cases range : ∀ n ∈ values, 0 ≤ n ∧ n ≤ 255
    · rw [if_pos range] at taken
      cases taken
      refine ⟨range, ?_, (List.length_map _).symm⟩
      rw [List.map_map]
      exact ((List.map_congr_left fun n listed => toNat_ofInt_of_range (range n listed)).trans
        (List.map_id values)).symm
    · rw [if_neg range] at taken
      cases taken
  | other elementType size => cases taken
  | _ =>
    cases taken
    exact ⟨trivial, rfl, rfl⟩

/-- A form whose numbers are in range has bytes. -/
theorem Form.exists_bytes? (range : form.InRange) : ∃ content, form.bytes? = .ok content := by
  cases form with
  | array t values fits =>
    have fine : ¬ (t ≠ .byte ∧ ∃ n ∈ values, n < 0 ∨ 255 < n) :=
      fun refused => exists_outside_iff.mp refused.2 range
    exact ⟨_, if_neg fine⟩
  | other elementType size => exact absurd range id
  | _ => exact ⟨_, rfl⟩

/-- Forms of the same numbers are the same bytes. -/
theorem Form.bytes?_congr (range : form.InRange) (rangeOther : other.InRange)
    (same : form.numbers = other.numbers) : form.bytes? = other.bytes? := by
  obtain ⟨content, taken⟩ := form.exists_bytes? range
  obtain ⟨content', takenOther⟩ := other.exists_bytes? rangeOther
  obtain ⟨-, numbers, -⟩ := Form.bytes?_eq_ok taken
  obtain ⟨-, numbersOther, -⟩ := Form.bytes?_eq_ok takenOther
  rw [numbers, numbersOther] at same
  have inj : Function.Injective fun b : Byte => (b.toNat : Int) :=
    fun a b equal => BitVec.eq_of_toNat_eq (Int.ofNat_inj.mp equal)
  rw [taken, takenOther, List.map_injective_iff.mpr inj same]

end Program

namespace Machine

open Program

variable {form other : Form} {content : List Byte} {m : Machine} {size : Nat}

/-- The machine that a program of bytes was put into. -/
def loaded (content : List Byte) : Machine :=
  { empty with memory := (empty.memory.write 0 font).write programStart content }

/-- **A program is refused for its elements first and for its size after that.** -/
theorem boot_of_bytes {p : Program} (read : p.toBytes? = .ok content) :
    boot p = if maxSize < content.length then .error (.tooLarge content.length)
      else .ok (loaded content, content.length) := by
  unfold boot
  rw [read]
  rfl

/-- A program without bytes is refused for that reason. -/
theorem boot_of_error {p : Program} {e : Program.Error} (refused : p.toBytes? = .error e) :
    boot p = .error e := by
  unfold boot
  rw [refused]
  rfl

/-! ## What a machine holds that a program was put into -/

/-- Memory with the pictures of the digits at its start, a program at `0x200`, and zeros elsewhere:
the numbers of the program are listed. -/
structure Carries (m : Machine) (numbers : List Int) : Prop where
  digits : ∀ k (within : k < 80), m.memory[BitVec.ofNat 12 k] = font.get ⟨k, within⟩
  gap : ∀ a : Addr, 80 ≤ a.toNat → a.toNat < 512 → m.memory[a] = 0
  program : ∀ k (within : k < numbers.length),
    (m.memory[BitVec.ofNat 12 (512 + k)].toNat : Int) = numbers[k]
  rest : ∀ a : Addr, 512 + numbers.length ≤ a.toNat → m.memory[a] = 0

/-- Nothing has happened to the machine since it was made. -/
structure Fresh (m : Machine) : Prop where
  dark : ∀ cell : Cell, m.display[cell] = false
  registers : ∀ x : Nibble, m.v[x] = 0
  index : m.i = 0
  counter : m.pc = 0x200
  depth : m.sp = 0
  slots : ∀ k : Nibble, m.stack[k] = 0
  timers : m.delay = 0 ∧ m.sound = 0
  released : ∀ k : Nibble, m.keys[k] = false
  flags : m.dirty = false ∧ m.crashed = false ∧ m.warned = false
  undrawn : m.drawn = 0
  uncounted : ∀ counter ∈ m.counters.named, counter.2 = 0

/-- A machine that was just loaded is fresh. -/
theorem fresh_loaded (content : List Byte) : (loaded content).Fresh where
  dark cell := Display.getElem_blank cell
  registers x := Table.getElem_fill 0 x
  index := rfl
  counter := rfl
  depth := rfl
  slots k := Table.getElem_fill 0 k
  timers := ⟨rfl, rfl⟩
  released k := Table.getElem_fill false k
  flags := ⟨rfl, rfl, rfl⟩
  undrawn := rfl
  uncounted := by
    have none : ({} : Counters).named.all fun counter => counter.2 == 0 := by decide
    intro counter listed
    exact eq_of_beq (List.all_eq_true.mp none counter listed)

/-- A loaded machine carries the content, with the digits below it and zeros around. -/
theorem carries_loaded (fits : content.length ≤ maxSize) :
    (loaded content).Carries (content.map fun b => b.toNat) := by
  have size : content.length ≤ 3584 := fits
  have digitsSize : font.length = 80 := rfl
  have room : programStart.toNat + content.length ≤ Nat.pow 2 12 := Nat.add_le_add_left size 512
  have digitsRoom : (0 : Addr).toNat + font.length ≤ Nat.pow 2 12 := by decide
  -- outside the program there are the digits, and outside these there is nothing
  have below {a : Addr} (low : a.toNat < 512) :
      (loaded content).memory[a] = (empty.memory.write 0 font)[a] :=
    Table.getElem_write_of_apart _ _ room (.inl low)
  have behind {a : Addr} (high : 80 ≤ a.toNat) : (empty.memory.write 0 font)[a] = 0 :=
    (Table.getElem_write_of_apart _ _ digitsRoom (.inr (by simpa [digitsSize] using high))).trans
      (Table.getElem_fill 0 a)
  refine { digits := fun k within => ?_, gap := fun a high low => ?_,
           program := fun k within => ?_, rest := fun a high => ?_ }
  · have low : (BitVec.ofNat 12 k).toNat < 512 := by
      rw [BitVec.toNat_ofNat]
      omega
    rw [below low, ← BitVec.zero_add (BitVec.ofNat 12 k)]
    exact Table.getElem_write_inside _ 0 (by decide) within
  · rw [below low, behind high]
  · rw [List.length_map] at within
    have cell : (loaded content).memory[BitVec.ofNat 12 (512 + k)] = content[k] := by
      rw [BitVec.ofNat_add]
      exact Table.getElem_write_inside _ programStart (by omega) within
    rw [cell, List.getElem_map]
  · rw [List.length_map] at high
    have past : (loaded content).memory[a] = (empty.memory.write 0 font)[a] :=
      Table.getElem_write_of_apart _ _ room (.inr high)
    rw [past, behind (by omega)]

/-! ## All forms -/

/-- Numbers in range are loaded if they are not too many. -/
theorem boot_form_of_inRange (range : form.InRange) :
    ∃ content, form.numbers = (content.map fun b => (b.toNat : Int)) ∧
      form.size = content.length ∧
      boot form.program = if 3584 < form.size then .error (.tooLarge form.size)
        else .ok (loaded content, form.size) := by
  obtain ⟨content, taken⟩ := form.exists_bytes? range
  obtain ⟨-, numbers, size⟩ := Form.bytes?_eq_ok taken
  refine ⟨content, numbers, size, ?_⟩
  rw [boot_of_bytes ((toBytes?_program form).trans taken), size]
  rfl

/-- Numbers out of range are refused as such, however many they are. -/
theorem boot_form_of_outOfRange (bad : ¬ form.InRange) :
    ∃ e, (∀ n, e ≠ .tooLarge n) ∧ form.bytes? = .error e ∧ boot form.program = .error e := by
  cases taken : form.bytes? with
  | ok content => exact absurd (Form.bytes?_eq_ok taken).1 bad
  | error e =>
    refine ⟨e, fun n => ?_, rfl, boot_of_error ((toBytes?_program form).trans taken)⟩
    obtain ⟨_, _, -, rfl⟩ | ⟨_, _, _, -, rfl, -⟩ := Form.bytes?_eq_error_iff.mp taken <;> simp

/-- Any other error than that of the size is one of the elements. -/
theorem boot_form_eq_elementError_iff {e : Program.Error} (other : ∀ n, e ≠ .tooLarge n) :
    boot form.program = .error e ↔ form.bytes? = .error e := by
  by_cases range : form.InRange
  · obtain ⟨_, taken⟩ := form.exists_bytes? range
    obtain ⟨content, -, -, same⟩ := boot_form_of_inRange range
    rw [same, taken]
    split
    · simp [(other _).symm]
    · simp
  · obtain ⟨e', -, refused, same⟩ := boot_form_of_outOfRange range
    rw [refused, same, Except.error.injEq, Except.error.injEq]

/-- The size is at fault exactly if the numbers are in range and too many. -/
theorem boot_form_eq_tooLarge_iff {n : Nat} : boot form.program = .error (.tooLarge n) ↔
    form.InRange ∧ n = form.size ∧ 3584 < form.size := by
  by_cases range : form.InRange
  · obtain ⟨content, -, -, same⟩ := boot_form_of_inRange range
    rw [same]
    split
    case isTrue large => simp [range, large, eq_comm]
    case isFalse small => simp [small]
  · obtain ⟨e, other, -, same⟩ := boot_form_of_outOfRange range
    simp [same, range, other n]

/-- A machine starts exactly if the numbers are in range and not too many. -/
theorem exists_boot_form_iff :
    (∃ m size, boot form.program = .ok (m, size)) ↔ form.InRange ∧ form.size ≤ 3584 := by
  by_cases range : form.InRange
  · obtain ⟨content, -, -, same⟩ := boot_form_of_inRange range
    rw [same]
    split
    case isTrue large => simp [Nat.not_le_of_lt large]
    case isFalse small => simp [range, Nat.le_of_not_lt small]
  · obtain ⟨e, -, -, same⟩ := boot_form_of_outOfRange range
    simp [same, range]

/-- A machine that starts carries the numbers and is fresh, and the size is theirs. -/
theorem loaded_of_boot_form (booted : boot form.program = .ok (m, size)) :
    size = form.size ∧ m.Carries form.numbers ∧ m.Fresh := by
  obtain ⟨range, small⟩ := exists_boot_form_iff.mp ⟨m, size, booted⟩
  obtain ⟨content, numbers, length, same⟩ := boot_form_of_inRange range
  rw [same, if_neg (Nat.not_lt_of_le small)] at booted
  cases booted
  rw [numbers]
  exact ⟨rfl, carries_loaded (length ▸ small), fresh_loaded content⟩

/-- **What comes of a program in any of its forms.** A program is taken exactly if all its elements
are whole numbers that fit a byte and there are at most 3584 of them. The machine then holds the
pictures of the digits, the numbers from `0x200` on and zeros elsewhere, and everything else about
it is as it is at first. Whatever the types of the elements are, nothing is lost when they are cut
down to bytes, and the same numbers make the same machine. A program is refused for its elements,
however many there are, before it is refused for its size. -/
theorem boot_form :
    (∀ form : Form,
      form.program.toBytes? = form.bytes? ∧
      ((∃ m size, boot form.program = .ok (m, size)) ↔ form.InRange ∧ form.size ≤ 3584) ∧
      (∀ m size, boot form.program = .ok (m, size) →
        size = form.size ∧ m.Carries form.numbers ∧ m.Fresh) ∧
      (∀ elementType, boot form.program = .error (.notIntegers elementType) ↔
        ∃ size, form = .other elementType size) ∧
      (boot form.program = .error .outOfRange ↔
        ∃ t values fits, form = .array t values fits ∧ ∃ n ∈ values, n < 0 ∨ 255 < n) ∧
      ∀ n, boot form.program = .error (.tooLarge n) ↔
        form.InRange ∧ n = form.size ∧ 3584 < form.size) ∧
    ∀ form other : Form, form.InRange → other.InRange → form.numbers = other.numbers →
      boot form.program = boot other.program := by
  refine ⟨fun form => ⟨toBytes?_program form, exists_boot_form_iff, ?_, ?_, ?_,
    fun n => boot_form_eq_tooLarge_iff⟩, ?_⟩
  · exact fun m size booted => loaded_of_boot_form booted
  · intro elementType
    rw [boot_form_eq_elementError_iff (by simp), Form.bytes?_eq_error_iff]
    simp
  · rw [boot_form_eq_elementError_iff (by simp), Form.bytes?_eq_error_iff]
    simp
  · intro form other range rangeOther equal
    have same : form.program.toBytes? = other.program.toBytes? := by
      rw [toBytes?_program, toBytes?_program, Form.bytes?_congr range rangeOther equal]
    simp only [boot, same]

/-- Two numbers of sixteen bits with a sign. -/
def shortNumbers : Form :=
  .array ⟨true, 16⟩ [0x12, 0xFF] (by decide)

/-- More numbers than there is room for, none of which fits a byte. -/
def tooManyNegative : Form :=
  .array ⟨true, 8⟩ (List.replicate 4000 (-1)) fun n listed => by
    rw [List.eq_of_mem_replicate listed]
    decide

/-- One byte more than there is room for. -/
def oneTooMany : Form :=
  .bytes (List.replicate 3585 0)

theorem boot_form_short :
    (∃ m, boot shortNumbers.program = .ok (m, 2) ∧ m.Carries [0x12, 0xFF] ∧ m.Fresh) ∧
      (shortNumbers.InRange ∧ shortNumbers.numbers = (Form.byteArray [0x12, 0xFF]).numbers ∧
        boot shortNumbers.program = boot (Form.byteArray [0x12, 0xFF]).program) ∧
      boot tooManyNegative.program = .error .outOfRange ∧
      boot (Form.other "float64" 4000).program = .error (.notIntegers "float64") ∧
      boot oneTooMany.program = .error (.tooLarge 3585) := by
  obtain ⟨forms, alike⟩ := boot_form
  have booted : boot shortNumbers.program = .ok (_, 2) := rfl
  have range : shortNumbers.InRange := by
    intro n listed
    revert n
    decide
  obtain ⟨-, carries, fresh⟩ := (forms shortNumbers).2.2.1 _ _ booted
  refine ⟨⟨_, booted, carries, fresh⟩, ⟨range, rfl, alike _ _ range trivial rfl⟩, ?_, ?_, ?_⟩
  · obtain ⟨-, -, -, -, negative, -⟩ := forms tooManyNegative
    refine negative.mpr ⟨_, _, _, rfl, -1, ?_, .inl (by decide)⟩
    exact List.mem_replicate.mpr ⟨by decide, rfl⟩
  · obtain ⟨-, -, -, named, -⟩ := forms (.other "float64" 4000)
    exact (named "float64").mpr ⟨4000, rfl⟩
  · obtain ⟨-, -, -, -, -, large⟩ := forms oneTooMany
    have size : oneTooMany.size = 3585 := List.length_replicate
    refine (large 3585).mpr ⟨trivial, size.symm, ?_⟩
    rw [size]
    decide

end Machine

end Cosmac
