import Cosmac.Table

/-!
# Checked access to arrays

Reading and writing arrays of which nothing is known. Every index is checked against the size of the
array and every number against what a cell has room for; an access that fails its check is a
`Breach`. A table has an image as an array, and an index that is a word of the width of the table
never leaves it.
-/

namespace Cosmac

/-- An access that goes wrong. -/
inductive Breach where
  /-- An index outside of an array. -/
  | index (k : Int) (size : Nat)
  /-- A number that a cell has no room for. -/
  | value (n limit : Nat)
  deriving DecidableEq, Repr

namespace Checked

variable {α β : Type}

/-- The content of cell `k`. -/
def load (a : Array α) (k : Int) : Except Breach α :=
  if h : 0 ≤ k ∧ k.toNat < a.size then .ok (getElem a k.toNat h.2)
  else .error (.index k a.size)

/-- The array with cell `k` replaced. -/
def put (a : Array α) (k : Int) (v : α) : Except Breach (Array α) :=
  if h : 0 ≤ k ∧ k.toNat < a.size then .ok (a.set k.toNat v h.2)
  else .error (.index k a.size)

/-- The array with cell `k` replaced, the cells having room for numbers below `limit`. -/
def store (limit : Nat) (a : Array Nat) (k : Int) (n : Nat) : Except Breach (Array Nat) :=
  if n < limit then put a k n else .error (.value n limit)

end Checked

namespace Table

variable {w : Nat} {α β : Type}

/-- The contents of the cells, seen through `f`. -/
def image (f : α → β) (t : Table w α) : Array β :=
  (t.cells.map f).toArray

variable (f : α → β) (t : Table w α) (k : BitVec w)

@[simp] theorem size_image : (t.image f).size = Nat.pow 2 w :=
  Vector.size_toArray _

/-- The image has the image of each cell at its number. -/
theorem getElem_image {j : Nat} (h : j < (t.image f).size) :
    (t.image f)[j] = f t[BitVec.ofNat w j] := by
  rw [size_image] at h
  have small : j < 2 ^ w := h
  simp [image, getElem_def, Nat.mod_eq_of_lt small]

/-- Mapping over an image maps over the cells. -/
theorem map_image {γ : Type} (g : β → γ) : (t.image f).map g = t.image fun a => g (f a) := by
  rw [image, ← Vector.toArray_map, Vector.map_map]
  rfl

/-- What holds of every cell holds of every member of an image. -/
theorem forall_mem_image {P : β → Prop} {f : α → β} {t : Table w α}
    (cells : ∀ k : BitVec w, P (f t[k])) : ∀ b ∈ t.image f, P b := by
  intro b held
  obtain ⟨j, hj, rfl⟩ := Array.mem_iff_getElem.mp held
  rw [getElem_image]
  exact cells _

/-- Images with equal cells are equal. -/
theorem image_congr {γ : Type} {f : α → β} {g : γ → β} {t : Table w α} {u : Table w γ}
    (same : ∀ k : BitVec w, f t[k] = g u[k]) : t.image f = u.image g := by
  apply Array.ext
  · rw [size_image, size_image]
  · intro j ht hu
    rw [getElem_image, getElem_image, same]

theorem inside_image : 0 ≤ (k.toNat : Int) ∧ (k.toNat : Int).toNat < (t.image f).size :=
  ⟨Int.natCast_nonneg _, by rw [size_image, Int.toNat_natCast]; exact k.isLt⟩

@[simp] theorem load_image : Checked.load (t.image f) k.toNat = .ok (f t[k]) := by
  rw [Checked.load, dif_pos (inside_image f t k)]
  simp [image, getElem_def]

@[simp] theorem put_image (a : α) :
    Checked.put (t.image f) k.toNat (f a) = .ok ((t.set k a).image f) := by
  rw [Checked.put, dif_pos (inside_image f t k)]
  simp [image, set]

/-- A number below the limit is stored in range. -/
theorem store_image {n : Nat} (t : Table w (BitVec n)) (k : BitVec w) (a : BitVec n)
    {limit : Nat} (fits : a.toNat < limit) :
    Checked.store limit (t.image BitVec.toNat) k.toNat a.toNat =
      .ok ((t.set k a).image BitVec.toNat) := by
  rw [Checked.store, if_pos fits, put_image]

end Table

end Cosmac
