import Cosmac.Proofs.Encoding
import Cosmac.Proofs.Stepping
import Mathlib.Data.List.Forall2

/-!
# What stops a machine, exactly

The instruction set as its manual prints it is a list of forms such as `8xy4` and `Fx1E`: four
characters, the capital digits fixed and the small letters free. `Word.Fits` compares a word with a
form digit by digit, in the numeral that messages show. A word that fits no form is refused; a call
is refused on a full stack and a return on an empty one; nothing else ever is. `Fault.Due` lists
these three cases, and `Machine.fault_iff_due` says that they are all, for words carried out on
their own and for words fetched by a step.
-/

namespace Cosmac

namespace Hex

/-- A digit that is written is read back. -/
theorem value?_digit {k : Nat} (small : k < 16) : value? (digit .upper k) = some k := by
  revert k
  decide

/-- A digit stands for a value below sixteen. -/
theorem value?_lt {c : Char} {k : Nat} (read : value? c = some k) : k < 16 := by
  simp only [value?] at read
  split at read
  · cases read
    omega
  · split at read
    · cases read
      omega
    · split at read
      · cases read
        omega
      · cases read

/-- A capital digit is the one written for its value. -/
theorem eq_digit_of_value? {c : Char} (capital : c.isLower = false) {k : Nat}
    (read : value? c = some k) : c = digit .upper k := by
  have number : Char.ofNat c.toNat = c := Char.ofNat_toNat c
  -- the reader takes small letters too, which forms keep for operands
  have outside : ¬ (97 ≤ c.toNat ∧ c.toNat ≤ 102) := by
    intro inside
    have top : c.toNat ≤ 122 := Nat.le_trans inside.2 (by decide)
    have small : c.isLower = true :=
      Bool.and_eq_true_iff.mpr ⟨decide_eq_true inside.1, decide_eq_true top⟩
    rw [small] at capital
    cases capital
  simp only [value?] at read
  split at read
  case isTrue decimal =>
    cases read
    rw [digit, if_pos (by omega), Nat.add_sub_cancel' decimal.1, number]
  case isFalse =>
    split at read
    case isTrue letter =>
      cases read
      rw [digit, if_neg (by omega), Nat.add_sub_cancel' (by omega), number]
    case isFalse => cases read

end Hex

namespace Word

/-- A word has a form: its numeral agrees with the form in every place, where a small letter stands
for any digit. -/
def Fits (w : Word) (form : String) : Prop :=
  List.Forall₂ (fun c d => c.isLower = true ∨ c = d) form.toList (Hex.upper 4 w.toNat).toList

end Word

namespace Instruction

/-- The forms of the words that are instructions. -/
def forms : List String :=
  ["00E0", "00EE", "1nnn", "2nnn", "3xkk", "4xkk", "5xy0", "6xkk", "7xkk",
   "8xy0", "8xy1", "8xy2", "8xy3", "8xy4", "8xy5", "8xy6", "8xy7", "8xyE", "9xy0",
   "Annn", "Bnnn", "Cxkk", "Dxyn", "Ex9E", "ExA1",
   "Fx07", "Fx0A", "Fx15", "Fx18", "Fx1E", "Fx29", "Fx33", "Fx55", "Fx65"]

/-- The form of an instruction. -/
def form : Instruction → String
  | clear => "00E0"
  | ret => "00EE"
  | jump _ => "1nnn"
  | call _ => "2nnn"
  | skip (.equalsByte _ _) => "3xkk"
  | skip (.differsByte _ _) => "4xkk"
  | skip (.equals _ _) => "5xy0"
  | load _ _ => "6xkk"
  | add _ _ => "7xkk"
  | arith .copy _ _ => "8xy0"
  | arith .or _ _ => "8xy1"
  | arith .and _ _ => "8xy2"
  | arith .xor _ _ => "8xy3"
  | arith .add _ _ => "8xy4"
  | arith .sub _ _ => "8xy5"
  | arith .shiftRight _ _ => "8xy6"
  | arith .subFrom _ _ => "8xy7"
  | arith .shiftLeft _ _ => "8xyE"
  | skip (.differs _ _) => "9xy0"
  | setIndex _ => "Annn"
  | jumpOffset _ => "Bnnn"
  | random _ _ => "Cxkk"
  | draw _ _ _ => "Dxyn"
  | skip (.keyDown _) => "Ex9E"
  | skip (.keyUp _) => "ExA1"
  | readDelay _ => "Fx07"
  | awaitKey _ => "Fx0A"
  | setDelay _ => "Fx15"
  | setSound _ => "Fx18"
  | addIndex _ => "Fx1E"
  | glyph _ => "Fx29"
  | digits _ => "Fx33"
  | store _ => "Fx55"
  | fetch _ => "Fx65"

/-- The form of every instruction is listed. -/
theorem form_mem_forms (i : Instruction) : i.form ∈ forms := by
  cases i with
  | skip c => cases c <;> simp [form, forms]
  | arith op x y => cases op <;> simp [form, forms]
  | _ => simp [form, forms]

end Instruction

namespace Word

/-- A character of a form allows a digit. -/
def Allows (c : Char) (k : Nibble) : Prop :=
  c.isLower = true ∨ some k = (Hex.value? c).map (BitVec.ofNat 4)

instance (c : Char) (k : Nibble) : Decidable (Allows c k) :=
  inferInstanceAs (Decidable (_ ∨ _))

/-- A letter of a form allows every nibble, a digit only its own. -/
theorem allows_iff {c : Char} {k : Nibble} :
    Allows c k ↔ c.isLower = true ∨ c = Hex.digit .upper k.toNat := by
  unfold Allows
  cases capital : c.isLower with
  | true => simp
  | false =>
    simp only [Bool.false_eq_true, false_or]
    constructor
    · intro h
      obtain ⟨v, read, rfl⟩ := Option.map_eq_some_iff.mp h.symm
      have small := Hex.value?_lt read
      rw [BitVec.toNat_ofNat, Nat.mod_eq_of_lt small]
      exact Hex.eq_digit_of_value? capital read
    · rintro rfl
      rw [Hex.value?_digit k.isLt]
      simp

/-- The nibbles of a word are its four hexadecimal digits. -/
theorem toNat_nibbles (w : Word) :
    w.family.toNat = w.toNat / 16 / 16 / 16 % 16 ∧ w.x.toNat = w.toNat / 16 / 16 % 16 ∧
      w.y.toNat = w.toNat / 16 % 16 ∧ w.n.toNat = w.toNat % 16 := by
  simp only [Word.family, Word.x, Word.y, Word.n, BitVec.extractLsb'_toNat,
    Nat.shiftRight_eq_div_pow, Nat.div_div_eq_div_mul]
  simp

/-- A word has a form if each of its four digits is allowed. -/
theorem fits_iff {w : Word} {a b c d : Char} :
    w.Fits (String.ofList [a, b, c, d]) ↔
      Allows a w.family ∧ Allows b w.x ∧ Allows c w.y ∧ Allows d w.n := by
  obtain ⟨family, x, y, n⟩ := toNat_nibbles w
  simp only [allows_iff, family, x, y, n]
  simp [Fits, Hex.upper, Hex.digits]

theorem y_wordOfByte (f x : Nibble) (kk : Byte) :
    (Instruction.wordOfByte f x kk).y = kk.extractLsb' 4 4 := by
  show (f ++ (x ++ kk)).extractLsb' 4 4 = _
  rw [BitVec.extractLsb'_append_eq_of_add_le (by decide),
    BitVec.extractLsb'_append_eq_of_add_le (by decide)]

theorem n_wordOfByte (f x : Nibble) (kk : Byte) :
    (Instruction.wordOfByte f x kk).n = kk.extractLsb' 0 4 := by
  show (f ++ (x ++ kk)).extractLsb' 0 4 = _
  rw [BitVec.extractLsb'_append_eq_of_add_le (by decide),
    BitVec.extractLsb'_append_eq_of_add_le (by decide)]

end Word

namespace Instruction

/-- An encoded instruction fits its form. -/
theorem fits_form (i : Instruction) : i.encode.Fits i.form := by
  cases i with
  | clear => exact Word.fits_iff.mpr (by decide)
  | ret => exact Word.fits_iff.mpr (by decide)
  | skip c =>
    cases c <;> exact Word.fits_iff.mpr (by
      simp [encode, Word.Allows, Hex.value?, Word.y_wordOfByte, Word.n_wordOfByte])
  | arith op x y =>
    cases op <;> exact Word.fits_iff.mpr (by simp [encode, Word.Allows, Hex.value?, Arith.toNibble])
  | _ =>
    exact Word.fits_iff.mpr (by
      simp [encode, Word.Allows, Hex.value?, Word.y_wordOfByte, Word.n_wordOfByte])

/-- A word that fits a form is an instruction of that form. -/
theorem exists_of_fits {w : Word} :
    ∀ form ∈ forms, w.Fits form → ∃ i, decode? w = some i ∧ i.form = form := by
  -- in terms of four nibbles a form fixes some of them, and the decoder then only looks at those
  obtain ⟨f, x, y, n, rfl⟩ : ∃ f x y n, w = wordOfNibbles f x y n :=
    ⟨_, _, _, _, (Word.wordOfNibbles_family_x_y_n w).symm⟩
  have kk : (wordOfNibbles f x y n).kk = y ++ n := Word.kk_wordOfByte f x (y ++ n)
  simp only [forms, List.forall_mem_cons, List.not_mem_nil, false_imp_iff, implies_true, and_true]
  refine ⟨?clear, ?ret, ?rest⟩
  case clear | ret =>
    intro fits
    have allowed := Word.fits_iff.mp fits
    simp [Word.Allows, Hex.value?] at allowed
    obtain ⟨rfl, rfl, rfl, rfl⟩ := allowed
    exact ⟨_, rfl, rfl⟩
  case rest =>
    and_intros
    all_goals
      intro fits
      have allowed := Word.fits_iff.mp fits
      simp [Word.Allows, Hex.value?] at allowed
      simp [allowed] at kk
      simp [decode?, allowed, Arith.ofNibble?, ofDeviceCode?, kk, form]

/-- A word has a form of the list exactly if it is an instruction of that form. -/
theorem fits_iff_decode? {w : Word} {form : String} (listed : form ∈ forms) :
    w.Fits form ↔ ∃ i, decode? w = some i ∧ i.form = form := by
  constructor
  · exact exists_of_fits form listed
  · rintro ⟨i, decoded, rfl⟩
    rw [← encode_of_decode? decoded]
    exact fits_form i

/-- Only a call has the form of a call. -/
theorem form_eq_call_iff {i : Instruction} : i.form = "2nnn" ↔ ∃ nnn, i = .call nnn := by
  cases i with
  | skip c => cases c <;> simp [form]
  | arith op => cases op <;> simp [form]
  | _ => simp [form]

/-- Only a return has the form of a return. -/
theorem form_eq_ret_iff {i : Instruction} : i.form = "00EE" ↔ i = .ret := by
  cases i with
  | skip c => cases c <;> simp [form]
  | arith op => cases op <;> simp [form]
  | _ => simp [form]

/-- The words that fit the form of a call are those that decode to one. -/
theorem fits_call_iff {w : Word} : w.Fits "2nnn" ↔ ∃ nnn, decode? w = some (.call nnn) := by
  rw [fits_iff_decode? (by decide)]
  constructor
  · rintro ⟨i, decoded, same⟩
    obtain ⟨nnn, rfl⟩ := form_eq_call_iff.mp same
    exact ⟨nnn, decoded⟩
  · rintro ⟨nnn, decoded⟩
    exact ⟨_, decoded, rfl⟩

/-- The word that fits the form of a return is the one that decodes to it. -/
theorem fits_ret_iff {w : Word} : w.Fits "00EE" ↔ decode? w = some .ret := by
  rw [fits_iff_decode? (by decide)]
  constructor
  · rintro ⟨i, decoded, same⟩
    rw [← form_eq_ret_iff.mp same]
    exact decoded
  · intro decoded
    exact ⟨_, decoded, rfl⟩

/-- A word is decoded unless it fits no form. -/
theorem decode?_eq_none_iff {w : Word} : decode? w = none ↔ ∀ form ∈ forms, ¬ w.Fits form := by
  constructor
  · intro unread form listed fits
    obtain ⟨i, decoded, -⟩ := exists_of_fits form listed fits
    rw [unread] at decoded
    cases decoded
  · intro formless
    cases decoded : decode? w with
    | none => rfl
    | some i =>
      have fits := (fits_iff_decode? (form_mem_forms i)).mpr ⟨i, decoded, rfl⟩
      exact absurd fits (formless _ (form_mem_forms i))

end Instruction

/-! ## The faults of a word -/

/-- The fault with which a word has to end, from its form, the address where it stands and the
number of return addresses on the stack. -/
inductive Fault.Due (w : Word) (site : Addr) (depth : Nat) : Fault → Prop
  | unknown (formless : ∀ form ∈ Instruction.forms, ¬ w.Fits form) :
    Due w site depth (.unknown w site)
  | stackOverflow (call : w.Fits "2nnn") (full : depth = 16) :
    Due w site depth (.stackOverflow site)
  | stackUnderflow (ret : w.Fits "00EE") (empty : depth = 0) :
    Due w site depth (.stackUnderflow site)

namespace Machine

variable {s : Setup} {m : Machine} {f : Fault}

/-- A call is refused on a full stack, a return on an empty one and nothing else ever. -/
theorem perform_eq_error_iff {i : Instruction} {r : Refusal Machine} :
    m.perform s i = .error r ↔
      (∃ nnn, i = .call nnn ∧ stackSize ≤ m.sp ∧ r = ⟨.stackOverflow m.here, m⟩) ∨
        (i = .ret ∧ m.sp = 0 ∧ r = ⟨.stackUnderflow m.here, m⟩) := by
  cases i with
  | call nnn =>
    by_cases full : stackSize ≤ m.sp <;> simp [perform, refuse, full, eq_comm]
  | ret =>
    by_cases none : m.sp = 0 <;> simp [perform, refuse, none, eq_comm]
  | skip c => by_cases h : m.holds c <;> simp [perform, h]
  | awaitKey x => cases h : m.lowestKey? <;> simp [perform, h]
  | _ => simp [perform]

/-- A word ends with a fault if it cannot be read or what it encodes is refused. -/
theorem execute_fault_iff {w : Word} :
    (m.execute s w).fault? = some f ↔
      (Instruction.decode? w = none ∧ f = .unknown w m.here) ∨
        ∃ i r, Instruction.decode? w = some i ∧ m.perform s i = .error r ∧ f = r.fault := by
  rw [execute_eq]
  cases Instruction.decode? w with
  | none => simp [stop, eq_comm]
  | some i => cases performed : m.perform s i <;> simp [stop, performed, eq_comm]

/-- Whether a word stops a machine, and with which fault, can be read off its form, the place where
it stands and the depth of the stack. -/
theorem execute_fault_iff_due (room : m.sp ≤ stackSize) {w : Word} :
    (m.execute s w).fault? = some f ↔ Fault.Due w m.here m.sp f := by
  rw [execute_fault_iff, Instruction.decode?_eq_none_iff]
  constructor
  · rintro (⟨formless, rfl⟩ | ⟨i, r, decoded, refused, rfl⟩)
    · exact .unknown formless
    · obtain ⟨nnn, rfl, full, rfl⟩ | ⟨rfl, empty, rfl⟩ := perform_eq_error_iff.mp refused
      · have call := Instruction.fits_call_iff.mpr ⟨nnn, decoded⟩
        exact .stackOverflow call (Nat.le_antisymm room full)
      · exact .stackUnderflow (Instruction.fits_ret_iff.mpr decoded) empty
  · intro due
    cases due with
    | unknown formless => exact .inl ⟨formless, rfl⟩
    | stackOverflow call full =>
      obtain ⟨nnn, decoded⟩ := Instruction.fits_call_iff.mp call
      have refused : m.perform s (.call nnn) = .error ⟨.stackOverflow m.here, m⟩ :=
        perform_eq_error_iff.mpr (.inl ⟨nnn, rfl, Nat.le_of_eq full.symm, rfl⟩)
      exact .inr ⟨_, _, decoded, refused, rfl⟩
    | stackUnderflow ret empty =>
      have refused : m.perform s .ret = .error ⟨.stackUnderflow m.here, m⟩ :=
        perform_eq_error_iff.mpr (.inr ⟨rfl, empty, rfl⟩)
      exact .inr ⟨_, _, Instruction.fits_ret_iff.mp ret, refused, rfl⟩

/-- A running machine fails in a step exactly when a fault is due. -/
theorem step_fault_iff_due (room : m.sp ≤ stackSize) (running : m.crashed = false) :
    (m.step s).fault? = some f ↔ Fault.Due m.word m.pc m.sp f := by
  rw [fault?_step_of_running running, execute_fault_iff_due (m := m.advance) room, here_advance]
  rfl

/-- The next word is big-endian: the byte at the program counter, then the byte behind it. -/
theorem toNat_word (m : Machine) :
    m.word.toNat = 256 * m.memory[m.pc].toNat + m.memory[m.pc + 1].toNat := by
  have low := m.memory[m.pc + 1].isLt
  rw [word, BitVec.toNat_append, Nat.shiftLeft_eq, Nat.mul_comm, Nat.two_pow_add_eq_or_of_lt low]

/-- **Exactly these words stop a machine.** A word of no form is refused as unknown, a call on a
full stack and a return on an empty one for their stack, and no other word ever is, in any dialect
and whatever else the state. Words are taken modulo `2 ^ 16`. A step names the address that the
word was fetched from, high byte first, although the program counter has moved on by then. -/
theorem fault_iff_due (s : Setup) (m : Machine) (room : m.sp ≤ 16) :
    (∀ (w : Int) f, (m.execute s (BitVec.ofInt 16 w)).fault? = some f ↔
        Fault.Due (BitVec.ofInt 16 w) (m.pc - 2) m.sp f) ∧
      (m.crashed = false →
        ∀ f, (m.step s).fault? = some f ↔ Fault.Due m.word m.pc m.sp f) ∧
      m.word.toNat = 256 * m.memory[m.pc].toNat + m.memory[m.pc + 1].toNat :=
  ⟨fun _ _ => execute_fault_iff_due room, fun running _ => step_fault_iff_due room running,
    m.toNat_word⟩

/-- A machine with a full stack that is about to fetch a call across the end of memory. -/
def brimming : Machine :=
  { empty with memory := .fill 0x2F, pc := 0xFFF, sp := 16 }

theorem fault_iff_due_brimming :
    brimming.sp ≤ 16 ∧ brimming.crashed = false ∧
      (brimming.execute {} (BitVec.ofInt 16 (-1))).fault? = some (.unknown 0xFFFF 0xFFD) ∧
      (brimming.step {}).fault? = some (.stackOverflow 0xFFF) ∧ brimming.word.toNat = 0x2F2F := by
  have room : brimming.sp ≤ 16 := Nat.le_refl 16
  obtain ⟨executed, stepped, bigEndian⟩ := fault_iff_due {} brimming room
  have fetched : brimming.word = 0x2F2F := by
    simp [brimming, word]
  have formless : ∀ form ∈ Instruction.forms, ¬ (0xFFFF : Word).Fits form :=
    Instruction.decode?_eq_none_iff.mp rfl
  have call : brimming.word.Fits "2nnn" :=
    Instruction.fits_call_iff.mpr ⟨0xF2F, by rw [fetched]; rfl⟩
  refine ⟨room, rfl, (executed (-1) _).mpr (.unknown formless), ?_, ?_⟩
  · exact (stepped rfl _).mpr (.stackOverflow call rfl)
  · rw [bigEndian]
    simp [brimming]

end Machine

end Cosmac
