/-!
# Tables

A table has one cell for every word of a given width, so reading and writing need no bounds check
and an address past the end is the address that the word wraps to. Memory, registers, the call
stack and the keypad are all tables; only the width and the content of a cell differ.

The view of a table is its cells, `t[k]`. `getElem_set` says what one write does to them, and
`write` and `read` move a run of neighbouring cells, going on from the last cell to the first.
-/

namespace Cosmac

/-- One cell for every `w`-bit word. -/
structure Table (w : Nat) (α : Type) where
  cells : Vector α (Nat.pow 2 w)
  deriving DecidableEq

namespace Table

variable {w : Nat} {α : Type}

/-- The table that holds `a` everywhere. -/
def fill (a : α) : Table w α :=
  ⟨.replicate _ a⟩

/-- The table whose cell `k` is `f k`. -/
def ofFn (f : BitVec w → α) : Table w α :=
  ⟨.ofFn fun k => f ⟨k⟩⟩

instance : GetElem (Table w α) (BitVec w) α fun _ _ => True where
  getElem t k _ := getElem t.cells k.toNat k.isLt

/-- The table with cell `k` replaced by `a`. -/
def set (t : Table w α) (k : BitVec w) (a : α) : Table w α :=
  ⟨t.cells.set k.toNat a k.isLt⟩

/-- The cells from index `0` upward. -/
def toList (t : Table w α) : List α :=
  t.cells.toList

/-- Every index of a table, in ascending order. -/
def indices (w : Nat) : List (BitVec w) :=
  (List.range (Nat.pow 2 w)).map (BitVec.ofNat w)

/-- Puts the values of a list into neighbouring cells, the first into cell `k`. -/
def write (t : Table w α) (k : BitVec w) : List α → Table w α
  | [] => t
  | a :: rest => (t.set k a).write (k + 1) rest

/-- The contents of `n` neighbouring cells, the first being cell `k`. -/
def read (t : Table w α) (k : BitVec w) : Nat → List α
  | 0 => []
  | n + 1 => t[k] :: t.read (k + 1) n

theorem getElem_def (t : Table w α) (k : BitVec w) :
    t[k] = getElem t.cells k.toNat k.isLt := rfl

@[simp] theorem getElem_fill (a : α) (k : BitVec w) : (fill a : Table w α)[k] = a := by
  simp [fill, getElem_def]

@[simp] theorem getElem_ofFn (f : BitVec w → α) (k : BitVec w) : (ofFn f)[k] = f k := by
  simp [ofFn, getElem_def]

/-- A write is seen at its own index and nowhere else. -/
theorem getElem_set (t : Table w α) (k j : BitVec w) (a : α) :
    (t.set k a)[j] = if j = k then a else t[j] := by
  by_cases h : j = k
  · subst h; simp [set, getElem_def]
  · have hne : k.toNat ≠ j.toNat := fun e => h (BitVec.eq_of_toNat_eq e.symm)
    simp [set, getElem_def, h, Vector.getElem_set_ne _ _ hne]

@[simp] theorem getElem_set_self (t : Table w α) (k : BitVec w) (a : α) : (t.set k a)[k] = a := by
  simp [getElem_set]

/-- Another cell is not written to. -/
theorem getElem_set_ne (t : Table w α) {k j : BitVec w} (a : α) (h : j ≠ k) :
    (t.set k a)[j] = t[j] := by
  simp [getElem_set, h]

/-- Of two writes to one cell the last one counts. -/
theorem set_set (t : Table w α) (k : BitVec w) (a b : α) : (t.set k a).set k b = t.set k b := by
  simp [set]

/-- Every word of the width is among the indices. -/
theorem mem_indices (k : BitVec w) : k ∈ indices w :=
  List.mem_map.mpr ⟨k.toNat, List.mem_range.mpr k.isLt, by simp⟩

/-- The indices ascend. -/
theorem pairwise_indices : (indices w).Pairwise (· < ·) := by
  apply List.pairwise_map.mpr
  apply List.Pairwise.imp_of_mem _ List.pairwise_lt_range
  intro a b ha hb lt
  have small {n : Nat} (h : n ∈ List.range (Nat.pow 2 w)) : n % 2 ^ w = n :=
    Nat.mod_eq_of_lt (List.mem_range.mp h)
  rw [BitVec.lt_def, BitVec.toNat_ofNat, BitVec.toNat_ofNat, small ha, small hb]
  exact lt

@[simp] theorem length_read (t : Table w α) (k : BitVec w) (n : Nat) : (t.read k n).length = n := by
  induction n generalizing k with
  | zero => rfl
  | succ n ih => simp [read, ih]

/-- Counting on from the next index. -/
theorem next_add_ofNat (k : BitVec w) (j : Nat) :
    k + 1 + BitVec.ofNat w j = k + BitVec.ofNat w (j + 1) := by
  rw [Nat.add_comm j 1, BitVec.ofNat_add, BitVec.add_assoc]
  rfl

/-- Counting on by less than the size of the table leads to another index. -/
theorem add_ofNat_ne (k : BitVec w) {n : Nat} (positive : 0 < n) (small : n < Nat.pow 2 w) :
    k + BitVec.ofNat w n ≠ k := by
  intro same
  have none : BitVec.ofNat w n = 0#w := BitVec.self_eq_add_right.mp same.symm
  have counted : n % Nat.pow 2 w = 0 := congrArg BitVec.toNat none
  rw [Nat.mod_eq_of_lt small] at counted
  omega

/-- The `j`-th value of a block comes from the `j`-th cell after its first. -/
theorem getElem_read (t : Table w α) (k : BitVec w) {n j : Nat} (h : j < (t.read k n).length) :
    (t.read k n)[j] = t[k + BitVec.ofNat w j] := by
  induction n generalizing k j with
  | zero => simp [read] at h
  | succ n ih =>
    cases j with
    | zero => simp [read]
    | succ j =>
      simp only [read, List.getElem_cons_succ]
      rw [ih, next_add_ofNat]

/-- A block that is written leaves all cells alone that are not its own. -/
theorem getElem_write_of_outside (t : Table w α) (k : BitVec w) (as : List α) {j : BitVec w}
    (outside : ∀ n < as.length, j ≠ k + BitVec.ofNat w n) : (t.write k as)[j] = t[j] := by
  induction as generalizing t k with
  | nil => rfl
  | cons a as ih =>
    have first : j ≠ k := by simpa using outside 0 (Nat.succ_pos as.length)
    have rest : ∀ n < as.length, j ≠ k + 1 + BitVec.ofNat w n := by
      intro n within
      rw [next_add_ofNat]
      exact outside (n + 1) (Nat.succ_lt_succ within)
    rw [write, ih _ _ rest, getElem_set_ne _ _ first]

/-- Tables with equal cells are equal. -/
@[ext] theorem ext {t u : Table w α} (h : ∀ k : BitVec w, t[k] = u[k]) : t = u := by
  obtain ⟨t⟩ := t
  obtain ⟨u⟩ := u
  congr 1
  apply Vector.ext
  intro i hi
  simpa [getElem_def] using h ⟨⟨i, hi⟩⟩

/-- Writing back what is there changes nothing. -/
@[simp] theorem set_getElem (t : Table w α) (k : BitVec w) : t.set k t[k] = t := by
  ext j
  rw [getElem_set]
  split
  case isTrue same => rw [same]
  case isFalse => rfl

/-- A block that is written is found in its own cells, unless it reaches around the table. -/
theorem getElem_write_inside (t : Table w α) (k : BitVec w) {as : List α}
    (fits : as.length ≤ Nat.pow 2 w) {j : Nat} (within : j < as.length) :
    (t.write k as)[k + BitVec.ofNat w j] = as[j] := by
  induction as generalizing t k j with
  | nil => simp at within
  | cons a as ih =>
    rw [List.length_cons] at fits within
    cases j with
    | zero =>
      -- the rest of the block does not come back to its first cell
      have apart : ∀ n < as.length, k + BitVec.ofNat w 0 ≠ k + 1 + BitVec.ofNat w n := by
        intro n inside same
        rw [BitVec.add_zero, next_add_ofNat] at same
        exact add_ofNat_ne k (Nat.succ_pos n) (by omega) same.symm
      rw [write, getElem_write_of_outside _ _ _ apart, BitVec.add_zero, getElem_set_self]
      rfl
    | succ j =>
      rw [write, ← next_add_ofNat]
      exact ih _ _ (by omega) (by omega)

/-- A block that ends before the table does leaves the cells in front of it and behind it alone. -/
theorem getElem_write_of_apart (t : Table w α) (k : BitVec w) {as : List α} {j : BitVec w}
    (fits : k.toNat + as.length ≤ Nat.pow 2 w)
    (apart : j.toNat < k.toNat ∨ k.toNat + as.length ≤ j.toNat) : (t.write k as)[j] = t[j] := by
  apply getElem_write_of_outside
  rintro n within rfl
  have place : (k + BitVec.ofNat w n).toNat = k.toNat + n := by
    have small : k.toNat + n < 2 ^ w := Nat.lt_of_lt_of_le (by omega) fits
    rw [BitVec.toNat_add, BitVec.toNat_ofNat, Nat.add_mod_mod, Nat.mod_eq_of_lt small]
  omega

/-- A block that is written reads back. -/
theorem read_write (t : Table w α) (k : BitVec w) {as : List α}
    (fits : as.length ≤ Nat.pow 2 w) : (t.write k as).read k as.length = as := by
  apply List.ext_getElem (length_read _ _ _)
  intro j _ within
  rw [getElem_read, getElem_write_inside t k fits within]

/-- A block that is read and written back changes nothing. -/
theorem write_read (t : Table w α) (k : BitVec w) (n : Nat) : t.write k (t.read k n) = t := by
  induction n generalizing k with
  | zero => rfl
  | succ n ih => rw [read, write, set_getElem, ih]

/-- Blocks that are written one behind the other are one block. -/
theorem write_append (t : Table w α) (k : BitVec w) (as bs : List α) :
    t.write k (as ++ bs) = (t.write k as).write (k + BitVec.ofNat w as.length) bs := by
  induction as generalizing t k with
  | nil => rw [List.length_nil, BitVec.add_zero]; rfl
  | cons a as ih => rw [List.cons_append, write, ih, next_add_ofNat]; rfl

end Table

end Cosmac
