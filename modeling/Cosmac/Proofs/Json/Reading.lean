import Cosmac.Json.Reader
import Cosmac.Proofs.Json.Members

/-!
# Records that are read have distinct keys

In a text a key may come more than once in a record. In the value that is read it does not: a record
is put together from its members when its end is met (`distinct_of_read`). The reader keeps what is
still open on a stack, so this is an invariant of the stack and of what may come next, which every
token keeps.

Values are compared by `Value.same`, part by part, which makes it decidable what a given text is
read as.
-/

namespace Cosmac.Json

/-- In all records of a value, however deep, every key comes once. -/
inductive Value.Distinct : Value → Prop
  | null : Distinct .null
  | bool (b : Bool) : Distinct (.bool b)
  | number (n : Number) : Distinct (.number n)
  | string (t : Text) : Distinct (.string t)
  | array {items : List Value} (all : ∀ v ∈ items, Distinct v) : Distinct (.array items)
  | object {ms : Members} (keys : ms.Distinct) (all : ∀ m ∈ ms, Distinct m.2) :
    Distinct (.object ms)

/-- A record has distinct keys if it has itself and all its members do. -/
theorem Value.distinct_object_iff {ms : Members} :
    (Value.object ms).Distinct ↔ ms.Distinct ∧ ∀ m ∈ ms, m.2.Distinct := by
  refine ⟨fun distinct => ?_, fun ⟨keys, all⟩ => .object keys all⟩
  cases distinct with
  | object keys all => exact ⟨keys, all⟩

/-! ## Comparing values -/

namespace Value

mutual

/-- Two values are the same, part by part. -/
def same : Value → Value → Bool
  | null, null => true
  | bool a, bool b => a == b
  | number a, number b => a == b
  | string a, string b => a == b
  | array items, array others => sameItems items others
  | object members, object others => sameMembers members others
  | _, _ => false

/-- Two lists of values are the same, item by item. -/
def sameItems : List Value → List Value → Bool
  | [], [] => true
  | v :: items, w :: others => v.same w && sameItems items others
  | _, _ => false

/-- Two records are the same, member by member. -/
def sameMembers : List (Text × Value) → List (Text × Value) → Bool
  | [], [] => true
  | (k, v) :: members, (j, w) :: others => k == j && v.same w && sameMembers members others
  | _, _ => false

end

mutual

/-- To compare values part by part is to compare them. -/
theorem same_iff : (v w : Value) → (v.same w = true ↔ v = w)
  | array items, w => by cases w <;> simp [same, sameItems_iff items]
  | object members, w => by cases w <;> simp [same, sameMembers_iff members]
  | null, w | bool _, w | number _, w | string _, w => by cases w <;> simp [same]

theorem sameItems_iff : (items others : List Value) →
    (sameItems items others = true ↔ items = others)
  | [], others => by cases others <;> simp [sameItems]
  | v :: items, others => by cases others <;> simp [sameItems, same_iff v, sameItems_iff items]

theorem sameMembers_iff : (members others : List (Text × Value)) →
    (sameMembers members others = true ↔ members = others)
  | [], others => by cases others <;> simp [sameMembers]
  | (k, v) :: members, others => by
    cases others <;> simp [sameMembers, same_iff v, sameMembers_iff members, Prod.ext_iff]

end

instance : DecidableEq Value := fun v w =>
  decidable_of_iff _ (same_iff v w)

end Value

/-! ## Tokens -/

namespace Token

/-- A value that is a token of its own has distinct keys. -/
def Distinct : Token → Prop
  | plain v => v.Distinct
  | _ => True

variable {p : CodePoint} {t rest : Text} {tok : Token} {negative : Bool}

theorem distinct_ofNumeral (negative : Bool) (whole fraction : Text) (exponent : Option Int) :
    (ofNumeral negative whole fraction exponent).Distinct := by
  unfold ofNumeral
  split
  · split
    · trivial
    · exact .number _
  · exact .number _

/-- A number has no keys. -/
theorem distinct_of_numeral? (read : numeral? negative t = some (tok, rest)) : tok.Distinct := by
  simp only [numeral?, Option.bind_eq_bind, Option.bind_eq_some_iff, Option.pure_def,
    Option.some.injEq, Prod.mk.injEq] at read
  obtain ⟨-, -, rfl, -⟩ := read
  exact distinct_ofNumeral _ _ _ _

/-- The words of the format have no keys. -/
theorem distinct_of_word? (read : word? p t = some (tok, rest)) : tok.Distinct := by
  have plain : ∀ w ∈ words, w.2.2.Distinct := by
    simp only [words, List.forall_mem_cons]
    exact ⟨.null, .bool true, .bool false, .number _, .number _, List.forall_mem_nil _⟩
  simp only [word?, Option.bind_eq_bind, Option.bind_eq_some_iff, Option.pure_def,
    Option.some.injEq, Prod.mk.injEq] at read
  obtain ⟨w, found, -, -, rfl, -⟩ := read
  exact plain w (List.mem_of_find?_eq_some found)

theorem distinct_of_single? (read : single? p = some tok) : tok.Distinct := by
  unfold single? at read
  grind [Distinct]

/-- A token that is cut off is no record, so it has no keys. -/
theorem distinct_of_ofStart? (read : ofStart? p t = some (tok, rest)) : tok.Distinct := by
  unfold ofStart? at read
  split at read
  case h_1 found =>
    cases read
    exact distinct_of_single? found
  case h_2 =>
    split at read
    · obtain ⟨_, -, same⟩ := Option.map_eq_some_iff.mp read
      cases same
      trivial
    split at read
    · unfold negative? at read
      split at read
      · cases read
        exact .number _
      · exact distinct_of_numeral? read
    split at read
    · exact distinct_of_numeral? read
    · exact distinct_of_word? read

/-- No token of a text has a key twice. -/
theorem distinct_of_mem_scan {before : List Token} (all : ∀ tok ∈ before, tok.Distinct) :
    ∀ tok ∈ scan before t, tok.Distinct := by
  fun_induction scan before t with
  | case1 before => exact fun tok listed => all tok (List.mem_reverse.mp listed)
  | case2 before p rest blank ih => exact ih all
  | case3 before p rest solid cut =>
    intro tok listed
    obtain rfl | earlier := List.mem_cons.mp (List.mem_reverse.mp listed)
    · trivial
    · exact all tok earlier
  | case4 before p rest solid tok tail cut ih =>
    exact ih (List.forall_mem_cons.mpr ⟨distinct_of_ofStart? cut, all⟩)

end Token

/-! ## The reader -/

namespace Reader

/-- All values in an open list or record have distinct keys. -/
def Frame.Distinct : Frame → Prop
  | array items => ∀ v ∈ items, v.Distinct
  | object members _ => ∀ m ∈ members, m.2.Distinct

/-- All values that are at hand have distinct keys. -/
def Expected.Distinct : Expected → Prop
  | key members | colon members _ => ∀ m ∈ members, m.2.Distinct
  | nothing v => v.Distinct
  | _ => True

/-- All values in a reader have distinct keys. -/
structure State.Distinct (s : State) : Prop where
  stack : ∀ f ∈ s.stack, f.Distinct
  expected : s.expected.Distinct

variable {s next : State} {stack : List Frame} {tok : Token} {v : Value}

/-- A complete value with distinct keys may be taken in. -/
theorem distinct_accept (open_ : ∀ f ∈ stack, f.Distinct) (complete : v.Distinct) :
    (accept stack v).Distinct := by
  unfold accept
  split
  · exact ⟨open_, complete⟩
  · obtain ⟨first, rest⟩ := List.forall_mem_cons.mp open_
    exact ⟨List.forall_mem_cons.mpr ⟨List.forall_mem_cons.mpr ⟨complete, first⟩, rest⟩, trivial⟩
  · obtain ⟨first, rest⟩ := List.forall_mem_cons.mp open_
    exact ⟨List.forall_mem_cons.mpr ⟨List.forall_mem_cons.mpr ⟨complete, first⟩, rest⟩, trivial⟩

/-- The start of a value keeps the keys distinct. -/
theorem distinct_of_start (open_ : ∀ f ∈ stack, f.Distinct) (token : tok.Distinct)
    (taken : start stack tok = .ok next) : next.Distinct := by
  unfold start at taken
  split at taken <;> cases taken
  · exact ⟨open_, trivial⟩
  · exact ⟨List.forall_mem_cons.mpr ⟨List.forall_mem_nil _, open_⟩, trivial⟩
  · exact distinct_accept open_ (.string _)
  · exact distinct_accept open_ token

/-- **Every token keeps the keys distinct.** The one that ends a record makes them so. -/
theorem distinct_of_step (before : s.Distinct) (token : tok.Distinct)
    (taken : step s tok = .ok next) : next.Distinct := by
  obtain ⟨stack, expected⟩ := s
  obtain ⟨open_, hand⟩ := before
  simp only [step] at taken
  split at taken
  case h_1 => exact distinct_of_start open_ token taken
  case h_3 => exact distinct_of_start open_ token taken
  all_goals cases taken
  case h_2 =>
    obtain ⟨-, rest⟩ := List.forall_mem_cons.mp open_
    exact distinct_accept rest (.array (List.forall_mem_nil _))
  case h_4 => exact distinct_accept open_ (.object Members.distinct_nil (List.forall_mem_nil _))
  case h_5 => exact ⟨open_, List.forall_mem_nil _⟩
  case h_6 => exact ⟨open_, hand⟩
  case h_7 => exact ⟨List.forall_mem_cons.mpr ⟨hand, open_⟩, trivial⟩
  case h_8 => exact ⟨open_, trivial⟩
  case h_9 =>
    obtain ⟨items, rest⟩ := List.forall_mem_cons.mp open_
    exact distinct_accept rest (.array fun v listed => items v (List.mem_reverse.mp listed))
  case h_10 =>
    obtain ⟨members, rest⟩ := List.forall_mem_cons.mp open_
    exact ⟨rest, members⟩
  case h_11 =>
    -- the end of a record: whatever its members were, the record has distinct keys
    obtain ⟨members, rest⟩ := List.forall_mem_cons.mp open_
    refine distinct_accept rest (.object (Members.distinct_ofList _) fun m listed => ?_)
    exact members m (List.mem_reverse.mp (Members.mem_of_mem_ofList listed))

/-- Tokens one after another keep the keys distinct. -/
theorem distinct_of_foldlM {tokens : List Token} (before : s.Distinct)
    (all : ∀ tok ∈ tokens, tok.Distinct) (taken : tokens.foldlM step s = .ok next) :
    next.Distinct := by
  induction tokens generalizing s with
  | nil =>
    cases taken
    exact before
  | cons tok tokens ih =>
    obtain ⟨token, others⟩ := List.forall_mem_cons.mp all
    rw [List.foldlM_cons] at taken
    cases first : step s tok with
    | error e =>
      rw [first] at taken
      cases taken
    | ok mid =>
      rw [first] at taken
      exact ih (distinct_of_step before token first) others taken

end Reader

/-- **In a value that is read every key of a record comes once.** -/
theorem distinct_of_read {t : Text} {v : Value} (taken : read t = .ok v) : v.Distinct := by
  simp only [read] at taken
  split at taken
  · cases taken
  split at taken
  · cases taken
  cases run : (Token.scan [] t).foldlM Reader.step ⟨[], .value⟩ with
  | error e =>
    rw [run] at taken
    cases taken
  | ok s =>
    have start : Reader.State.Distinct ⟨[], .value⟩ := ⟨List.forall_mem_nil _, trivial⟩
    have done : s.Distinct :=
      Reader.distinct_of_foldlM start (Token.distinct_of_mem_scan (List.forall_mem_nil _)) run
    have complete := done.expected
    simp only [run, bind, Except.bind] at taken
    split at taken
    case h_1 found =>
      cases taken
      rwa [found] at complete
    case h_2 => cases taken

end Cosmac.Json
