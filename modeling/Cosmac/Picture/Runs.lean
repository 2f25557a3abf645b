/-!
# Runs

A list of values kept as runs of equal neighbours. `ofList` makes the longest runs there are,
`toList` writes the list out again, and `stretch` repeats every element without writing it out.

A list whose elements were repeated is a list of blocks of one length: `getElem?_blocks` says what
stands where in such a list.
-/

namespace Cosmac

/-! ## Blocks of one length -/

section Blocks

variable {α β : Type} {f : α → List β} {l : List α} {n : Nat}

/-- **In which block a place is, and where in it.** -/
theorem getElem?_blocks (length : ∀ a ∈ l, (f a).length = n) (k : Nat) {c : Nat} (within : c < n) :
    (l.flatMap f)[k * n + c]? = l[k]?.bind fun a => (f a)[c]? := by
  induction l generalizing k with
  | nil => rfl
  | cons a l ih =>
    obtain ⟨first, others⟩ := List.forall_mem_cons.mp length
    rw [List.flatMap_cons]
    cases k with
    | zero =>
      rw [Nat.zero_mul, Nat.zero_add, List.getElem?_append_left (first ▸ within)]
      rfl
    | succ k =>
      have past : (f a).length ≤ (k + 1) * n + c := by
        rw [first, Nat.succ_mul]
        omega
      have rest : (k + 1) * n + c - (f a).length = k * n + c := by
        rw [first, Nat.succ_mul]
        omega
      rw [List.getElem?_append_right past, rest, ih others, List.getElem?_cons_succ]

/-- Blocks of one length make as many times that length. -/
theorem length_blocks (length : ∀ a ∈ l, (f a).length = n) :
    (l.flatMap f).length = l.length * n := by
  rw [List.length_flatMap, List.map_congr_left length, List.map_const', List.sum_replicate_nat]

/-- In a list whose elements were each repeated, a place belongs to the element of its block. -/
theorem getElem?_flatMap_replicate (l : List α) (positive : 0 < n) (i : Nat) :
    (l.flatMap (List.replicate n))[i]? = l[i / n]? := by
  have place : i % n < n := Nat.mod_lt i positive
  have block : (l.flatMap (List.replicate n))[i / n * n + i % n]? = _ :=
    getElem?_blocks (fun _ _ => List.length_replicate) (i / n) place
  rw [Nat.div_add_mod'] at block
  rw [block]
  cases l[i / n]? with
  | none => rfl
  | some a => rw [Option.bind_some, List.getElem?_replicate, if_pos place]

end Blocks

/-! ## Runs -/

/-- The same value a number of times in a row. -/
structure Run (α : Type) where
  count : Nat
  value : α
  deriving DecidableEq, Repr

/-- A list as runs. -/
abbrev Runs (α : Type) := List (Run α)

namespace Runs

variable {α β : Type}

/-- The list that the runs stand for. -/
def toList (rs : Runs α) : List α :=
  rs.flatMap fun r => List.replicate r.count r.value

/-- One more value in front. -/
def cons [DecidableEq α] (a : α) : Runs α → Runs α
  | [] => [⟨1, a⟩]
  | r :: rest => if a = r.value then ⟨r.count + 1, a⟩ :: rest else ⟨1, a⟩ :: r :: rest

/-- The longest runs of a list. -/
def ofList [DecidableEq α] (as : List α) : Runs α :=
  as.foldr cons []

/-- Every element `n` times in a row. -/
def stretch (n : Nat) (rs : Runs α) : Runs α :=
  rs.map fun r => ⟨n * r.count, r.value⟩

/-- Puts a run in front and joins it with a first run of the same value. -/
def consRun [DecidableEq α] (r : Run α) : Runs α → Runs α
  | [] => [r]
  | q :: rest => if r.value = q.value then ⟨r.count + q.count, r.value⟩ :: rest else r :: q :: rest

/-- Joins neighbouring runs of the same value. -/
def merge [DecidableEq α] (rs : Runs α) : Runs α :=
  rs.foldr consRun []

/-- Another value in place of each. -/
def mapValues (f : α → β) (rs : Runs α) : Runs β :=
  rs.map fun r => ⟨r.count, f r.value⟩

@[simp] theorem toList_nil : toList ([] : Runs α) = [] := rfl

@[simp] theorem toList_cons_run (r : Run α) (rs : Runs α) :
    toList (r :: rs) = List.replicate r.count r.value ++ toList rs := rfl

@[simp] theorem toList_cons [DecidableEq α] (a : α) (rs : Runs α) :
    (cons a rs).toList = a :: rs.toList := by
  cases rs with
  | nil => simp [cons]
  | cons r rest =>
    by_cases h : a = r.value
    · simp [cons, h, List.replicate_succ]
    · simp [cons, h]

@[simp] theorem toList_consRun [DecidableEq α] (r : Run α) (rs : Runs α) :
    (consRun r rs).toList = List.replicate r.count r.value ++ rs.toList := by
  cases rs with
  | nil => simp [consRun]
  | cons q rest =>
    by_cases h : r.value = q.value
    · simp [consRun, h, List.replicate_append_replicate, ← List.append_assoc]
    · simp [consRun, h]

/-- Joining runs leaves the list that they stand for. -/
@[simp] theorem toList_merge [DecidableEq α] (rs : Runs α) : rs.merge.toList = rs.toList := by
  induction rs with
  | nil => rfl
  | cons r rs ih => simpa [merge] using ih

/-- Nothing is lost in runs. -/
@[simp] theorem toList_ofList [DecidableEq α] (as : List α) : (ofList as).toList = as := by
  induction as with
  | nil => rfl
  | cons a as ih => simpa [ofList] using ih

/-- Runs that are strung together are written out one after another. -/
theorem toList_flatten (rss : List (Runs α)) : toList rss.flatten = rss.flatMap toList := by
  simp only [toList, List.flatMap_def, List.map_flatten, List.flatten_flatten, List.map_map]
  rfl

/-- Repeating every element of runs is repeating every element of their list. -/
theorem toList_stretch (n : Nat) (rs : Runs α) :
    (stretch n rs).toList = rs.toList.flatMap (List.replicate n) := by
  induction rs with
  | nil => rfl
  | cons r rs ih =>
    have block : List.replicate (n * r.count) r.value =
        (List.replicate r.count r.value).flatMap (List.replicate n) := by
      rw [List.flatMap_replicate, List.flatten_replicate_replicate, Nat.mul_comm]
    have cons : stretch n (r :: rs) = ⟨n * r.count, r.value⟩ :: stretch n rs := rfl
    rw [cons, toList_cons_run, toList_cons_run, List.flatMap_append, ih, block]

@[simp] theorem toList_mapValues (f : α → β) (rs : Runs α) :
    (rs.mapValues f).toList = rs.toList.map f := by
  induction rs with
  | nil => rfl
  | cons r rs ih =>
    have cons : mapValues f (r :: rs) = ⟨r.count, f r.value⟩ :: mapValues f rs := rfl
    rw [cons, toList_cons_run, toList_cons_run, List.map_append, List.map_replicate, ih]

end Runs

end Cosmac
