import Cosmac.Instruction

/-!
# Words and the instructions they encode

Reading a word back gives the instruction that was written, and a word that can be read is the word
of the instruction read from it. So `decode?` and `encode` are inverse to each other on the
instruction set, and everything else is no encoding.

The operands are cut out of a word and put together again; the first section has one lemma for each
operand of each of the three layouts.
-/

namespace Cosmac

namespace Word

@[simp] theorem family_wordOfAddr (f : Nibble) (nnn : Addr) :
    (Instruction.wordOfAddr f nnn).family = f :=
  BitVec.extractLsb'_append_eq_left

@[simp] theorem nnn_wordOfAddr (f : Nibble) (nnn : Addr) :
    (Instruction.wordOfAddr f nnn).nnn = nnn :=
  BitVec.extractLsb'_append_eq_right

@[simp] theorem family_wordOfByte (f x : Nibble) (kk : Byte) :
    (Instruction.wordOfByte f x kk).family = f :=
  BitVec.extractLsb'_append_eq_left

@[simp] theorem x_wordOfByte (f x : Nibble) (kk : Byte) :
    (Instruction.wordOfByte f x kk).x = x := by
  show (f ++ (x ++ kk)).extractLsb' 8 4 = x
  rw [BitVec.extractLsb'_append_eq_of_add_le (by decide)]
  exact BitVec.extractLsb'_append_eq_left

@[simp] theorem kk_wordOfByte (f x : Nibble) (kk : Byte) :
    (Instruction.wordOfByte f x kk).kk = kk := by
  show (f ++ (x ++ kk)).extractLsb' 0 8 = kk
  rw [BitVec.extractLsb'_append_eq_of_add_le (by decide)]
  exact BitVec.extractLsb'_append_eq_right

@[simp] theorem family_wordOfNibbles (f x y n : Nibble) :
    (Instruction.wordOfNibbles f x y n).family = f :=
  BitVec.extractLsb'_append_eq_left

@[simp] theorem x_wordOfNibbles (f x y n : Nibble) :
    (Instruction.wordOfNibbles f x y n).x = x :=
  x_wordOfByte f x (y ++ n)

@[simp] theorem y_wordOfNibbles (f x y n : Nibble) :
    (Instruction.wordOfNibbles f x y n).y = y := by
  show (f ++ (x ++ (y ++ n))).extractLsb' 4 4 = y
  rw [BitVec.extractLsb'_append_eq_of_add_le (by decide),
    BitVec.extractLsb'_append_eq_of_add_le (by decide)]
  exact BitVec.extractLsb'_append_eq_left

@[simp] theorem n_wordOfNibbles (f x y n : Nibble) :
    (Instruction.wordOfNibbles f x y n).n = n := by
  show (f ++ (x ++ (y ++ n))).extractLsb' 0 4 = n
  rw [BitVec.extractLsb'_append_eq_of_add_le (by decide),
    BitVec.extractLsb'_append_eq_of_add_le (by decide)]
  exact BitVec.extractLsb'_append_eq_right

/-- A word is its family followed by an address. -/
theorem wordOfAddr_family_nnn (w : Word) : Instruction.wordOfAddr w.family w.nnn = w := by
  have next : 12 = 0 + 12 := rfl
  exact (BitVec.extractLsb'_append_extractLsb'_eq_extractLsb' next).trans
    BitVec.extractLsb'_eq_self

/-- A word is its family followed by a register and a byte. -/
theorem wordOfByte_family_x_kk (w : Word) : Instruction.wordOfByte w.family w.x w.kk = w := by
  have next : 8 = 0 + 8 := rfl
  have tail : w.x ++ w.kk = w.nnn := BitVec.extractLsb'_append_extractLsb'_eq_extractLsb' next
  exact (congrArg (w.family ++ ·) tail).trans (wordOfAddr_family_nnn w)

/-- A word is its family followed by three nibbles. -/
theorem wordOfNibbles_family_x_y_n (w : Word) :
    Instruction.wordOfNibbles w.family w.x w.y w.n = w := by
  have next : 4 = 0 + 4 := rfl
  have tail : w.y ++ w.n = w.kk := BitVec.extractLsb'_append_extractLsb'_eq_extractLsb' next
  exact (congrArg (fun kk : Byte => w.family ++ (w.x ++ kk)) tail).trans (wordOfByte_family_x_kk w)

end Word

namespace Instruction

/-! ## Reading what was written -/

/-- An encoding reads back. -/
theorem decode?_encode (i : Instruction) : decode? i.encode = some i := by
  cases i with
  | clear => rfl
  | ret => rfl
  | skip c => cases c <;> simp [encode, decode?]
  | readDelay | awaitKey | setDelay | setSound | addIndex | glyph | digits | store | fetch =>
    simp [encode, decode?, ofDeviceCode?]
  | _ => simp [encode, decode?]

/-! ## Writing what was read -/

/-- An operation that is read from a nibble is written as it. -/
theorem toNibble_of_ofNibble? {n : Nibble} {op : Arith} (h : Arith.ofNibble? n = some op) :
    op.toNibble = n := by
  unfold Arith.ofNibble? at h
  split at h <;> cases h <;> rfl

/-- What is read from a device code is encoded by it. -/
theorem encode_of_ofDeviceCode? {x : Nibble} {kk : Byte} {i : Instruction}
    (h : ofDeviceCode? x kk = some i) : i.encode = wordOfByte 0xF x kk := by
  unfold ofDeviceCode? at h
  split at h <;> cases h <;> rfl

/-- A word that can be read is the encoding of what is read. -/
theorem encode_of_decode? {w : Word} {i : Instruction} (h : decode? w = some i) :
    i.encode = w := by
  have byNibbles := Word.wordOfNibbles_family_x_y_n w
  have byByte := Word.wordOfByte_family_x_kk w
  have byAddr := Word.wordOfAddr_family_nnn w
  unfold decode? at h
  split at h
  case h_9 family =>
    obtain ⟨op, named, rfl⟩ := Option.map_eq_some_iff.mp h
    rw [encode, toNibble_of_ofNibble? named]
    simpa [family] using byNibbles
  -- the last family is what remains of the sixteen
  case h_16 =>
    have family : w.family = 0xF#4 := by
      generalize w.family = f at *
      clear byNibbles byByte byAddr h
      revert f
      decide
    rw [encode_of_ofDeviceCode? h]
    simpa [family] using byByte
  all_goals grind [encode]

/-- The words that can be read are the encodings, each of one instruction. -/
theorem decode?_eq_some_iff {w : Word} {i : Instruction} :
    decode? w = some i ↔ w = i.encode :=
  ⟨fun h => (encode_of_decode? h).symm, fun h => h ▸ decode?_encode i⟩

end Instruction

end Cosmac
