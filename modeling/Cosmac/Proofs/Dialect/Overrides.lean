import Cosmac.Proofs.Dialect.Acceptance

/-!
# Switches over switches

How records of switches go over a dialect and over each other. A dialect refuses the records that
are refused on their own, and of one with unknown names it lists the same names
(`unknownKeys_putAll`), each once and in ascending order. Records that go over a dialect one after
the other go over it as the one record that they make (`Overlays.trans`), and the record of a whole
dialect leaves nothing of what was there before. In a file the standard profile is the same as none
(`override_laws`).
-/

namespace Cosmac

open Json

namespace Json.Members

variable {ms more : Members} {p : Text → Bool}

/-- The keys of a kind that a record lacks come into it in the order in which they are put in. -/
theorem filter_keys_putAll (distinct : more.Distinct)
    (fresh : ∀ k ∈ more.keys, p k = true → k ∉ keys ms) :
    (keys (ms.putAll more)).filter p = (keys ms).filter p ++ more.keys.filter p := by
  induction more generalizing ms with
  | nil => exact (List.append_nil _).symm
  | cons m more ih =>
    obtain ⟨j, w⟩ := m
    obtain ⟨own, others⟩ := List.nodup_cons.mp distinct
    have first : ms.putAll ((j, w) :: more) = putAll (ms.put j w) more := rfl
    have cons : keys ((j, w) :: more) = j :: keys more := rfl
    rw [cons] at fresh ⊢
    obtain ⟨known, same⟩ | ⟨-, last⟩ := keys_put ms j w
    · -- a key that the record has is not of the kind
      have other : ¬ p j = true := fun kind => fresh j List.mem_cons_self kind known
      rw [first, List.filter_cons_of_neg other, ← same]
      refine ih others fun k listed kind => ?_
      rw [same]
      exact fresh k (List.mem_cons_of_mem j listed) kind
    · rw [first, ih others, last, List.filter_append, List.append_assoc, ← List.filter_append]
      · rfl
      · intro k listed kind known
        rw [last, List.mem_append, List.mem_singleton] at known
        obtain before | rfl := known
        · exact fresh k (List.mem_cons_of_mem j listed) kind before
        · exact own listed

end Json.Members

namespace Dialect

variable {ms more : Members} {d e f : Dialect} {names : List Text}

/-! ## Unknown names -/

/-- The keys of a record that are names of no switch. -/
def unknownKeys (ms : Members) : List Text :=
  ms.keys.filter fun k => (switch? k).isNone

/-- A record has unknown names, and these are they, each once and in ascending order. -/
structure Unknown (ms : Members) (names : List Text) : Prop where
  some : names ≠ []
  ascending : names.Pairwise fun t u => t.before u = true
  exactly : ∀ k, k ∈ names ↔ k ∈ ms.keys ∧ ∀ s : Switch, k ≠ s.key

/-- A key is unknown if it is there and names no switch. -/
theorem mem_unknownKeys {k : Text} :
    k ∈ unknownKeys ms ↔ k ∈ ms.keys ∧ ∀ s : Switch, k ≠ s.key := by
  simp only [unknownKeys, List.mem_filter, Option.isNone_iff_eq_none,
    Option.eq_none_iff_forall_ne_some, ne_eq, switch?_eq_some_iff]

/-- Sorting puts different texts into ascending order. -/
theorem pairwise_sorted {ts : List Text} (distinct : ts.Nodup) :
    (sorted ts).Pairwise fun t u => t.before u = true := by
  have order : (sorted ts).Pairwise fun t u => (!u.before t) = true := by
    refine List.pairwise_mergeSort (fun t u v first second => ?_) (fun t u => ?_) ts
    · simp only [Bool.not_eq_true', Bool.eq_false_iff] at first second ⊢
      intro after
      by_cases same : t = u
      · exact second (same ▸ after)
      · obtain before | before := Text.before_or_before same
        · exact second (Text.before_trans after before)
        · exact first before
    · by_cases after : u.before t = true
      · have still : ¬ t.before u = true :=
          fun before => Text.before_irrefl t (Text.before_trans before after)
        simp [still]
      · simp [after]
  have apart : (sorted ts).Pairwise fun t u => t ≠ u :=
    (List.mergeSort_perm ts _).nodup_iff.mpr distinct
  refine (order.and apart).imp fun {t u} ⟨notAfter, ne⟩ => ?_
  obtain before | after := Text.before_or_before ne
  · exact before
  · rw [after] at notAfter
    cases notAfter

/-- Ascending lists with the same members are the same list. -/
theorem eq_of_ascending {ts us : List Text} (first : ts.Pairwise fun t u => t.before u = true)
    (second : us.Pairwise fun t u => t.before u = true) (same : ∀ t, t ∈ ts ↔ t ∈ us) :
    ts = us := by
  have nodup {l : List Text} (ascending : l.Pairwise fun t u => t.before u = true) : l.Nodup :=
    ascending.imp fun {t u} before same => by
      subst same
      exact Text.before_irrefl t before
  refine List.Perm.eq_of_pairwise ?_ first second
    ((List.perm_ext_iff_of_nodup (nodup first) (nodup second)).mpr same)
  intro t u _ _ before after
  exact absurd (Text.before_trans before after) (Text.before_irrefl t)

/-- Unknown keys are refused by their names, in order. -/
theorem ofMembers?_of_unknown (some : unknownKeys ms ≠ []) :
    ofMembers? ms = .error (.unknownSwitches (sorted (unknownKeys ms))) := by
  have full : (unknownKeys ms).isEmpty = false := List.isEmpty_eq_false_iff.mpr some
  unfold unknownKeys at full
  simp only [ofMembers?, full, Bool.not_false, if_true, unknownKeys]

/-- Without an unknown key the error is another one. -/
theorem ofMembers?_ne_unknown (none : unknownKeys ms = []) :
    ofMembers? ms ≠ .error (.unknownSwitches names) := by
  unfold unknownKeys at none
  simp only [ofMembers?, none, List.isEmpty_nil, Bool.not_true, Bool.false_eq_true, if_false]
  split <;> simp

/-- **A record is refused for unknown names exactly if it has some, and these are listed.** -/
theorem ofMembers?_eq_unknown_iff (distinct : ms.Distinct) :
    ofMembers? ms = .error (.unknownSwitches names) ↔ Unknown ms names := by
  have ascending : (sorted (unknownKeys ms)).Pairwise fun t u => t.before u = true :=
    pairwise_sorted (distinct.filter _)
  have listed (k : Text) : k ∈ sorted (unknownKeys ms) ↔
      k ∈ ms.keys ∧ ∀ s : Switch, k ≠ s.key := by
    rw [sorted, List.mem_mergeSort, mem_unknownKeys]
  constructor
  · intro refused
    have some : unknownKeys ms ≠ [] := fun none => ofMembers?_ne_unknown none refused
    rw [ofMembers?_of_unknown some] at refused
    cases refused
    obtain ⟨k, one⟩ := List.exists_mem_of_ne_nil _ some
    exact ⟨List.ne_nil_of_mem (List.mem_mergeSort.mpr one), ascending, listed⟩
  · intro unknown
    obtain ⟨k, one⟩ := List.exists_mem_of_ne_nil _ unknown.some
    have some : unknownKeys ms ≠ [] :=
      List.ne_nil_of_mem (mem_unknownKeys.mpr ((unknown.exactly k).mp one))
    have same : sorted (unknownKeys ms) = names :=
      eq_of_ascending ascending unknown.ascending fun k =>
        (listed k).trans (unknown.exactly k).symm
    rw [ofMembers?_of_unknown some, same]

/-- **A dialect under a record does not add to the unknown names.** -/
theorem unknownKeys_putAll (d : Dialect) (distinct : ms.Distinct) :
    unknownKeys (d.toMembers.putAll ms) = unknownKeys ms := by
  have named : ∀ k ∈ d.toMembers.keys, ∃ s : Switch, k = s.key :=
    (admissible_toMembers d).known
  have none : (d.toMembers.keys.filter fun k => (switch? k).isNone) = [] :=
    unknown_eq_nil_iff.mpr named
  rw [unknownKeys, Members.filter_keys_putAll distinct, none]
  · rfl
  · intro k _ unnamed known
    obtain ⟨s, rfl⟩ := named k known
    rw [switch?_eq_some_iff.mpr rfl] at unnamed
    cases unnamed

/-- Over a dialect the unknown names are those of the settings. -/
theorem unknown_putAll_iff (d : Dialect) (distinct : ms.Distinct) :
    Unknown (d.toMembers.putAll ms) names ↔ Unknown ms names := by
  have same (k : Text) : (k ∈ Members.keys (d.toMembers.putAll ms) ∧ ∀ s : Switch, k ≠ s.key) ↔
      k ∈ ms.keys ∧ ∀ s : Switch, k ≠ s.key := by
    rw [← mem_unknownKeys, unknownKeys_putAll d distinct, mem_unknownKeys]
  constructor
  · rintro ⟨some, ascending, exactly⟩
    exact ⟨some, ascending, fun k => (exactly k).trans (same k)⟩
  · rintro ⟨some, ascending, exactly⟩
    exact ⟨some, ascending, fun k => (exactly k).trans (same k).symm⟩

/-! ## One record over another -/

/-- **Records over a dialect one after the other are the record that they make over it.** -/
theorem Overlays.trans (first : Overlays d ms e) (second : Overlays e more f)
    (distinct : ms.Distinct) (distinctMore : more.Distinct) :
    Overlays d (ms.putAll more) f where
  given s b listed := by
    rw [Members.mem_iff_get? (distinct.putAll more), Members.get?_putAll_of_distinct distinctMore,
      Option.or_eq_some_iff] at listed
    obtain own | ⟨silent, under⟩ := listed
    · exact second.given s b (Members.mem_of_get? own)
    · rw [second.kept s (Members.get?_eq_none_iff.mp silent)]
      exact first.given s b (Members.mem_of_get? under)
  kept s absent := by
    rw [← Members.get?_eq_none_iff, Members.get?_putAll_of_distinct distinctMore,
      Option.or_eq_none_iff, Members.get?_eq_none_iff, Members.get?_eq_none_iff] at absent
    rw [second.kept s absent.1, first.kept s absent.2]

/-- The record of a whole dialect over another one gives that dialect. -/
theorem overlays_toMembers (d e : Dialect) : Overlays d e.toMembers e where
  given s b listed := by
    obtain ⟨r, key, value⟩ := mem_toMembers.mp listed
    rw [Switch.key_inj] at key
    cases value
    rw [key]
  kept s absent := by
    have mentioned : (s.key, .bool (e.get s)) ∈ e.toMembers := mem_toMembers.mpr ⟨s, rfl, rfl⟩
    exact absurd (Members.mem_keys_of_mem mentioned) absent

/-- Settings are accepted over a dialect exactly if they are accepted alone. -/
theorem exists_override?_iff (distinct : ms.Distinct) :
    (∃ e, d.override? ms = .ok e) ↔ ∃ e, ofMembers? ms = .ok e := by
  constructor
  · rintro ⟨e, taken⟩
    obtain ⟨good, -⟩ := (override?_eq_ok_iff distinct).mp taken
    exact ⟨_, ofMembers?_eq_ok_iff.mpr ⟨good, rfl⟩⟩
  · rintro ⟨e, taken⟩
    obtain ⟨good, -⟩ := ofMembers?_eq_ok_iff.mp taken
    exact ⟨_, (override?_eq_ok_iff distinct).mpr ⟨good, overlays_putAll d distinct⟩⟩

/-- Records that are taken can be put over any dialect one after the other, or as one. -/
theorem override?_override? (distinct : ms.Distinct) (distinctMore : more.Distinct)
    (good : Admissible ms) (goodMore : Admissible more) :
    ∃ mid last, d.override? ms = .ok mid ∧ mid.override? more = .ok last ∧
      d.override? (ms.putAll more) = .ok last := by
  have first := overlays_putAll d distinct
  have second := overlays_putAll (ofFn (position (d.toMembers.putAll ms))) distinctMore
  refine ⟨_, _, (override?_eq_ok_iff distinct).mpr ⟨good, first⟩,
    (override?_eq_ok_iff distinctMore).mpr ⟨goodMore, second⟩,
    (override?_eq_ok_iff (distinct.putAll more)).mpr ⟨?_, ?_⟩⟩
  · exact (admissible_putAll good distinct distinctMore).mpr goodMore
  · exact first.trans second distinct distinctMore

namespace File

/-- A record that names the standard profile and has switches over it. -/
def overStandard (ms : Members) : Value :=
  .object [(profileKey, .string "default"), (overridesKey, .object ms)]

/-- **Switches over the standard profile are the switches alone.** -/
theorem ofValue_overStandard {path other : String} (distinct : ms.Distinct)
    (plain : profileKey ∉ ms.keys) :
    ofValue path (.object ms) = .ok e ↔ ofValue other (overStandard ms) = .ok e := by
  have apart : profileKey ≠ overridesKey := by decide
  have keys : Members.Distinct [(profileKey, .string "default"), (overridesKey, .object ms)] :=
    List.nodup_cons.mpr ⟨List.mem_singleton.not.mpr apart, List.nodup_singleton _⟩
  have only : OnlyProfile [(profileKey, .string "default"), (overridesKey, .object ms)] := by
    simp [OnlyProfile, Members.keys]
  have known : Text.toLower "default" = Text.ofString Profile.standard.name := by decide +kernel
  have given := (Members.mem_iff_get? keys).mp (List.mem_cons_of_mem _ List.mem_cons_self)
  rw [ofValue_flat plain, overStandard, ofValue_named keys only List.mem_cons_self known, given,
    overlaid, mapError_eq_ok_iff, mapError_eq_ok_iff, override?_eq_ok_iff distinct,
    ofMembers?_eq_ok_iff_overlays distinct]
  rfl

/-- **The laws of switches over switches.** Over any dialect a record is taken exactly if it is
taken on its own, and if it has unknown names it is refused for the same ones, listed in the same
order. Two records that are taken can be put over a dialect one after the other, which is to put the
first one updated by the second over it. The record of a whole dialect over another one gives that
dialect. In a file a record that does not mention a profile is as good as the same record over the
standard profile. -/
theorem override_laws (d : Dialect) :
    (∀ ms : Members, ms.Distinct →
      ((∃ e, d.override? ms = .ok e) ↔ ∃ e, ofMembers? ms = .ok e) ∧
      ∀ names,
        (d.override? ms = .error (.unknownSwitches names) ↔ Unknown ms names) ∧
        (ofMembers? ms = .error (.unknownSwitches names) ↔ Unknown ms names)) ∧
    (∀ ms more : Members, ms.Distinct → more.Distinct →
      (∃ e, ofMembers? ms = .ok e) → (∃ e, ofMembers? more = .ok e) →
        ∃ mid last, d.override? ms = .ok mid ∧ mid.override? more = .ok last ∧
          d.override? (ms.putAll more) = .ok last) ∧
    (∀ e : Dialect, d.override? e.toMembers = .ok e) ∧
    ∀ ms : Members, profileKey ∉ ms.keys →
      (ms.Distinct → ∀ (path other : String) (e : Dialect),
        ofValue path (.object ms) = .ok e ↔ ofValue other (overStandard ms) = .ok e) ∧
      ∀ (fs : Files) (path other : String) (flat layered : Files.Content),
        fs.read path = .ok flat → fs.read other = .ok layered →
        Holds flat.toBytes (.object ms) → Holds layered.toBytes (overStandard ms) →
          ∀ e, read fs path = .ok e ↔ read fs other = .ok e := by
  refine ⟨fun ms distinct => ⟨exists_override?_iff distinct, fun names => ⟨?_, ?_⟩⟩, ?_, ?_, ?_⟩
  · rw [override?, ofMembers?_eq_unknown_iff ((distinct_toMembers d).putAll ms),
      unknown_putAll_iff d distinct]
  · exact ofMembers?_eq_unknown_iff distinct
  · rintro ms more distinct distinctMore ⟨e, taken⟩ ⟨f, takenMore⟩
    obtain ⟨good, -⟩ := ofMembers?_eq_ok_iff.mp taken
    obtain ⟨goodMore, -⟩ := ofMembers?_eq_ok_iff.mp takenMore
    exact override?_override? distinct distinctMore good goodMore
  · intro e
    exact (override?_eq_ok_iff (distinct_toMembers e)).mpr
      ⟨admissible_toMembers e, overlays_toMembers d e⟩
  · intro ms plain
    refine ⟨fun distinct path other e => ofValue_overStandard distinct plain, ?_⟩
    intro fs path other flat layered there thereToo holds holdsToo e
    obtain ⟨distinct, -⟩ := Value.distinct_object_iff.mp holds.distinct
    simp only [read, there, thereToo]
    rw [holds.ofBytes, holdsToo.ofBytes]
    exact ofValue_overStandard distinct plain

/-- A record that turns one switch off. -/
def memoryOff : Members :=
  [("memory", .bool false)]

/-- A record that turns the same switch on and another one off. -/
def memoryOn : Members :=
  [("memory", .bool true), ("clipping", .bool false)]

/-- A record with two names of no switch, the later one first, and values that are no positions. -/
def strayNames : Members :=
  [("zoom", .null), ("memory", .bool true), ("blur", .number (.int 1))]

/-- The line of a file with the record `memoryOn`. -/
def flatLine : String :=
  "\x7b\"memory\": true, \"clipping\": false\x7d"

/-- The line of a file with that record over the standard profile. -/
def layeredMemoryLine : String :=
  "\x7b\"profile\": \"default\", \"overrides\": " ++ flatLine ++ "\x7d"

/-- The files with these lines. -/
def memoryFiles : Files :=
  ⟨[(["flat.json"], .file (.ofLines [flatLine])),
    (["layered.json"], .file (.ofLines [layeredMemoryLine]))]⟩

theorem override_laws_memory :
    (memoryOff.Distinct ∧ memoryOn.Distinct ∧ strayNames.Distinct) ∧
      Profile.chip8.dialect.override? strayNames = .error (.unknownSwitches ["blur", "zoom"]) ∧
      (∃ mid, Profile.chip8.dialect.override? memoryOff = .ok mid ∧
        mid.override? memoryOn = Profile.chip8.dialect.override? (memoryOff.putAll memoryOn)) ∧
      profileKey ∉ memoryOn.keys ∧
      read memoryFiles "flat.json" = .ok { memory := true } ∧
      read memoryFiles "layered.json" = .ok { memory := true } := by
  obtain ⟨names, chain, -, files⟩ := override_laws Profile.chip8.dialect
  have distinct (ms : Members) (nodup : ms.keys.Nodup) : ms.Distinct := nodup
  have off : memoryOff.Distinct := distinct _ (by decide)
  have on : memoryOn.Distinct := distinct _ (by decide)
  have stray : strayNames.Distinct := distinct _ (by decide)
  have unnamed : profileKey ∉ memoryOn.keys := by decide
  have unknown : Unknown strayNames ["blur", "zoom"] := by
    have unsorted : unknownKeys strayNames = [Text.ofString "zoom", "blur"] := by decide
    refine ⟨by decide, by decide, fun k => ?_⟩
    rw [← mem_unknownKeys, unsorted, List.mem_pair, List.mem_pair, or_comm]
  have takenOff : ofMembers? memoryOff = .ok {} := rfl
  have takenOn : ofMembers? memoryOn = .ok { memory := true } := rfl
  obtain ⟨mid, last, first, second, both⟩ := chain _ _ off on ⟨_, takenOff⟩ ⟨_, takenOn⟩
  have holds : Holds (Files.Content.ofLines [flatLine]).toBytes (.object memoryOn) := by
    refine ⟨Text.ofString (flatLine ++ "\n"), ?_, ?_⟩ <;> decide +kernel
  have holdsLayered : Holds (Files.Content.ofLines [layeredMemoryLine]).toBytes
      (overStandard memoryOn) := by
    refine ⟨Text.ofString (layeredMemoryLine ++ "\n"), ?_, ?_⟩ <;> decide +kernel
  have there : memoryFiles.read "flat.json" = .ok (.ofLines [flatLine]) := rfl
  have thereToo : memoryFiles.read "layered.json" = .ok (.ofLines [layeredMemoryLine]) := rfl
  have flat : read memoryFiles "flat.json" = .ok { memory := true } := by
    simp only [read, there]
    rw [holds.ofBytes, ofValue_flat unnamed, takenOn]
    rfl
  refine ⟨⟨off, on, stray⟩, ?_, ⟨mid, first, second.trans both.symm⟩, unnamed, flat, ?_⟩
  · exact ((names _ stray).2 ["blur", "zoom"]).1.mpr unknown
  · exact ((files _ unnamed).2 _ _ _ _ _ there thereToo holds holdsLayered _).mp flat

end File

end Dialect

end Cosmac
