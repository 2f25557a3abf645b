import Cosmac.Json.Value
import Mathlib.Data.List.Nodup

/-!
# Keys of records

What a record holds is what it gives for a key. A member that is put in is found under its own key,
and nothing else changes (`get?_put`); of members that are put in one after another, the last one
with a key counts (`get?_putAll`). Putting keeps the keys of a record distinct, and in such a record
the members are the values of its keys (`mem_iff_get?`).
-/

namespace Cosmac.Json.Members

variable {ms more : Members} {k j : Text} {v w : Value}

/-- Every key comes once. -/
def Distinct (ms : Members) : Prop :=
  (keys ms).Nodup

theorem distinct_nil : Distinct [] :=
  List.nodup_nil

theorem get?_cons : get? ((j, w) :: ms) k = if j = k then some w else get? ms k := by
  by_cases same : j = k <;> simp [get?, same]

/-- A first list of members comes before a second one. -/
theorem get?_append : get? (ms ++ more) k = (get? ms k).or (get? more k) := by
  simp only [get?, List.find?_append, Option.map_or]

/-- Nothing is found exactly if the key is not there. -/
theorem get?_eq_none_iff : get? ms k = none ↔ k ∉ keys ms := by
  simp only [get?, keys, Option.map_eq_none_iff, List.find?_eq_none, beq_iff_eq, List.mem_map,
    not_exists, not_and]

theorem mem_keys_of_mem (listed : (k, v) ∈ ms) : k ∈ keys ms :=
  List.mem_map_of_mem listed

/-- What is found is there. -/
theorem mem_of_get? (found : get? ms k = some v) : (k, v) ∈ ms := by
  obtain ⟨m, first, rfl⟩ := Option.map_eq_some_iff.mp found
  have key : m.1 = k := by simpa using List.find?_some first
  subst key
  exact List.mem_of_find?_eq_some first

/-- **In a record with distinct keys the members are the values of the keys.** -/
theorem mem_iff_get? (distinct : Distinct ms) : (k, v) ∈ ms ↔ get? ms k = some v := by
  refine ⟨fun listed => ?_, mem_of_get?⟩
  induction ms with
  | nil => cases listed
  | cons m ms ih =>
    obtain ⟨j, w⟩ := m
    obtain ⟨fresh, rest⟩ := List.nodup_cons.mp distinct
    rw [get?_cons]
    obtain same | later := List.mem_cons.mp listed
    · cases same
      exact if_pos rfl
    · have other : j ≠ k := fun same => fresh (same ▸ mem_keys_of_mem later)
      rw [if_neg other]
      exact ih rest later

/-! ## Putting members in -/

/-- **A member that is put in is found under its own key**, and all others stay. -/
theorem get?_put : get? (put ms j w) k = if j = k then some w else get? ms k := by
  induction ms with
  | nil => rw [put, get?_cons]
  | cons m ms ih =>
    obtain ⟨i, u⟩ := m
    rw [put]
    by_cases own : i = j
    · subst own
      rw [if_pos rfl, get?_cons, get?_cons]
      by_cases same : i = k <;> simp [same]
    · rw [if_neg own, get?_cons, get?_cons, ih]
      by_cases same : i = k
      · subst same
        rw [if_pos rfl, if_pos rfl, if_neg (Ne.symm own)]
      · rw [if_neg same, if_neg same]

/-- A key that is known keeps its place, and a new one comes last. -/
theorem keys_put (ms : Members) (j : Text) (w : Value) :
    (j ∈ keys ms ∧ keys (put ms j w) = keys ms) ∨
      (j ∉ keys ms ∧ keys (put ms j w) = keys ms ++ [j]) := by
  induction ms with
  | nil => exact .inr ⟨List.not_mem_nil, rfl⟩
  | cons m ms ih =>
    obtain ⟨i, u⟩ := m
    have cons (ms : Members) (u : Value) : keys ((i, u) :: ms) = i :: keys ms := rfl
    rw [put]
    by_cases own : i = j
    · subst own
      rw [if_pos rfl, cons, cons]
      exact .inl ⟨List.mem_cons_self, rfl⟩
    · rw [if_neg own, cons, cons]
      obtain ⟨known, same⟩ | ⟨absent, last⟩ := ih
      · exact .inl ⟨List.mem_cons_of_mem i known, congrArg (i :: ·) same⟩
      · refine .inr ⟨fun listed => ?_, congrArg (i :: ·) last⟩
        obtain same | later := List.mem_cons.mp listed
        · exact own same.symm
        · exact absent later

/-- Putting one member keeps the keys distinct. -/
theorem Distinct.put (distinct : Distinct ms) (j : Text) (w : Value) :
    Distinct (put ms j w) := by
  unfold Distinct
  obtain ⟨-, same⟩ | ⟨absent, last⟩ := keys_put ms j w
  · rw [same]
    exact distinct
  · rw [last]
    refine List.nodup_append.mpr ⟨distinct, List.nodup_singleton j, ?_⟩
    rintro i listed _ single rfl
    exact absent (List.mem_singleton.mp single ▸ listed)

/-- Putting members one after another keeps the keys distinct. -/
theorem Distinct.putAll (distinct : Distinct ms) (more : Members) : Distinct (putAll ms more) := by
  induction more generalizing ms with
  | nil => exact distinct
  | cons m more ih => exact ih (distinct.put m.1 m.2)

/-- A record that is read off a list has distinct keys. -/
theorem distinct_ofList (ms : List (Text × Value)) : Distinct (ofList ms) :=
  distinct_nil.putAll ms

/-- **Of members with one key the last one counts.** -/
theorem get?_putAll : get? (putAll ms more) k = (get? more.reverse k).or (get? ms k) := by
  induction more generalizing ms with
  | nil => rfl
  | cons m more ih =>
    obtain ⟨j, w⟩ := m
    have first : putAll ms ((j, w) :: more) = putAll (Members.put ms j w) more := rfl
    rw [first, ih, get?_put, List.reverse_cons, get?_append, Option.or_assoc, get?_cons]
    by_cases same : j = k <;> simp [same, get?]

theorem Distinct.reverse (distinct : Distinct ms) : Distinct ms.reverse := by
  unfold Distinct keys
  rw [List.map_reverse]
  exact List.nodup_reverse.mpr distinct

/-- With distinct keys the order of the members does not matter. -/
theorem get?_reverse (distinct : Distinct ms) : get? ms.reverse k = get? ms k := by
  apply Option.ext
  intro v
  rw [← mem_iff_get? distinct.reverse, ← mem_iff_get? distinct, List.mem_reverse]

/-- What is put into a record is found before what was there. -/
theorem get?_putAll_of_distinct (distinct : Distinct more) :
    get? (putAll ms more) k = (get? more k).or (get? ms k) := by
  rw [get?_putAll, get?_reverse distinct]

/-- A record that is read off a list holds members of the list only. -/
theorem mem_of_mem_ofList (listed : (k, v) ∈ ofList ms) : (k, v) ∈ ms := by
  rw [mem_iff_get? (distinct_ofList ms), ofList, get?_putAll] at listed
  have nothing : get? [] k = none := rfl
  rw [nothing, Option.or_none] at listed
  exact List.mem_reverse.mp (mem_of_get? listed)

end Cosmac.Json.Members
