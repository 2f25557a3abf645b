import Cosmac.Dialect.Settings
import Cosmac.Proofs.Json.Members

/-!
# Records of switches

Which records give a dialect and which dialect they give. A record is admissible if all its keys
are names of switches and all its values true or false (`Admissible`); these are the records that
are taken (`ofMembers?_eq_ok_iff`). Putting such a record over a dialect hides nothing that is wrong
with it (`admissible_putAll`) and keeps what it does not mention (`override?_eq_ok_iff`).
-/

namespace Cosmac

open Json

/-! ## Names -/

/-- The key of a switch in a record. -/
abbrev Switch.key (s : Switch) : Text :=
  Text.ofString s.name

theorem Switch.key_inj {s r : Switch} : s.key = r.key ↔ s = r := by
  rw [Text.ofString_inj]
  cases s <;> cases r <;> simp [Switch.name]

/-- A profile is named by the text that is its name in letters of either case. -/
theorem Profile.ofText?_eq_ok_iff {name : Text} {p : Profile} :
    Profile.ofText? name = .ok p ↔ name.toLower = Text.ofString p.name := by
  have plain : '\uFFFD' ∉ p.name.toList := by cases p <;> simp [Profile.name]
  rw [← Text.toString_eq_iff plain]
  unfold Profile.ofText? Profile.ofName?
  constructor
  · intro found
    split at found
    case h_1 first =>
      cases found
      have own := List.find?_some first
      exact (eq_of_beq own).symm
    case h_2 => cases found
  · intro same
    rw [same]
    cases p <;> rfl

namespace Dialect

variable {ms base : Members} {k : Text} {d e : Dialect}

/-- A key names the switch whose key it is. -/
theorem switch?_eq_some_iff {s : Switch} : switch? k = some s ↔ k = s.key := by
  constructor
  · intro found
    have own := List.find?_some found
    exact (eq_of_beq own).symm
  · rintro rfl
    -- names are compared as texts; compared as switches, the search can be run
    have same (r : Switch) : (r.key == s.key) = decide (r = s) := by
      simp only [beq_eq_decide, Switch.key_inj]
    simp only [switch?, same]
    cases s <;> rfl

/-! ## Admissible records -/

/-- A record of switches: all keys are names of switches, and all values are true or false. -/
structure Admissible (ms : Members) : Prop where
  known : ∀ k ∈ ms.keys, ∃ s : Switch, k = s.key
  bools : ∀ m ∈ ms, ∃ b, m.2 = .bool b

/-- Settings are admissible if every key names a switch and every value is on or off. -/
theorem admissible_iff : Admissible ms ↔
    ∀ m ∈ ms, (∃ s : Switch, m.1 = s.key) ∧ ∃ b, m.2 = .bool b := by
  refine ⟨fun good m listed => ⟨good.known m.1 (List.mem_map_of_mem listed), good.bools m listed⟩,
    fun all => ⟨fun k known => ?_, fun m listed => (all m listed).2⟩⟩
  obtain ⟨m, listed, rfl⟩ := List.mem_map.mp known
  exact (all m listed).1

/-- No key is unknown exactly if each of them names a switch. -/
theorem unknown_eq_nil_iff : (ms.keys.filter fun k => (switch? k).isNone) = [] ↔
    ∀ k ∈ ms.keys, ∃ s : Switch, k = s.key := by
  simp only [List.filter_eq_nil_iff, Option.isNone_iff_eq_none, Option.eq_none_iff_forall_ne_some,
    not_forall, not_not, switch?_eq_some_iff]

/-- No value is a misfit exactly if each of them is on or off. -/
theorem misfit?_eq_none_iff : misfit? ms = none ↔ ∀ m ∈ ms, ∃ b, m.2 = .bool b := by
  simp only [misfit?, List.find?_eq_none]
  refine forall₂_congr fun m listed => ?_
  cases m.2 <;> simp

/-- **A record gives a dialect exactly if it is admissible**, the one with its positions. -/
theorem ofMembers?_eq_ok_iff :
    ofMembers? ms = .ok d ↔ Admissible ms ∧ d = ofFn (position ms) := by
  unfold ofMembers?
  by_cases known : (ms.keys.filter fun k => (switch? k).isNone) = []
  · simp only [known, List.isEmpty_nil, Bool.not_true, Bool.false_eq_true, if_false]
    cases misfit : misfit? ms with
    | some m =>
      have bad : ¬ Admissible ms := fun a => by
        rw [misfit?_eq_none_iff.mpr a.bools] at misfit
        cases misfit
      simp [bad]
    | none =>
      have good : Admissible ms := ⟨unknown_eq_nil_iff.mp known, misfit?_eq_none_iff.mp misfit⟩
      simp [good, eq_comm]
  · have bad : ¬ Admissible ms := fun a => known (unknown_eq_nil_iff.mpr a.known)
    have full : (ms.keys.filter fun k => (switch? k).isNone).isEmpty = false := by
      simpa using known
    simp [full, bad]

/-- The switches that an admissible record mentions are given a position. -/
theorem Admissible.exists_mem (good : Admissible ms) (mentioned : k ∈ ms.keys) :
    ∃ b, (k, .bool b) ∈ ms := by
  obtain ⟨⟨k, v⟩, listed, rfl⟩ := List.mem_map.mp mentioned
  obtain ⟨b, rfl⟩ := good.bools _ listed
  exact ⟨b, listed⟩

/-! ## Positions -/

/-- A switch that is given stands where the settings put it. -/
theorem position_of_mem (distinct : ms.Distinct) {s : Switch} {b : Bool}
    (listed : (s.key, .bool b) ∈ ms) : position ms s = b := by
  rw [Members.mem_iff_get? distinct] at listed
  simp only [position, listed]

/-- A switch that is not given is off. -/
theorem position_of_not_mem {s : Switch} (absent : s.key ∉ ms.keys) :
    position ms s = false := by
  rw [← Members.get?_eq_none_iff] at absent
  simp only [position, absent]

/-- `e` is `d` with the switches of a record in the positions that the record gives. -/
structure Overlays (d : Dialect) (ms : Members) (e : Dialect) : Prop where
  given : ∀ (s : Switch) (b : Bool), (s.key, .bool b) ∈ ms → e.get s = b
  kept : ∀ s : Switch, s.key ∉ ms.keys → e.get s = d.get s

/-- An admissible record over a dialect gives one dialect only. -/
theorem Overlays.eq_iff {e' : Dialect} (overlay : Overlays d ms e) (good : Admissible ms) :
    e' = e ↔ Overlays d ms e' := by
  refine ⟨fun same => same ▸ overlay, fun other => ext_get fun s => ?_⟩
  by_cases mentioned : s.key ∈ ms.keys
  · obtain ⟨b, listed⟩ := good.exists_mem mentioned
    rw [overlay.given s b listed, other.given s b listed]
  · rw [overlay.kept s mentioned, other.kept s mentioned]

/-- A record with distinct keys stands over the dialect with all switches off. -/
theorem overlays_position (distinct : ms.Distinct) :
    Overlays {} ms (ofFn (position ms)) where
  given s b listed := by rw [get_ofFn, position_of_mem distinct listed]
  kept s absent := by
    rw [get_ofFn, position_of_not_mem absent]
    cases s <;> rfl

/-- Settings alone are accepted exactly as an overlay of the dialect with all switches off. -/
theorem ofMembers?_eq_ok_iff_overlays (distinct : ms.Distinct) :
    ofMembers? ms = .ok d ↔ Admissible ms ∧ Overlays {} ms d := by
  rw [ofMembers?_eq_ok_iff]
  exact and_congr_right (overlays_position distinct).eq_iff

/-! ## Over a dialect -/

/-- A dialect lists every switch with its position. -/
theorem mem_toMembers {v : Value} :
    (k, v) ∈ d.toMembers ↔ ∃ s : Switch, k = s.key ∧ v = .bool (d.get s) := by
  simp only [toMembers, List.mem_map, Prod.mk.injEq]
  refine exists_congr fun s => ?_
  simp only [Switch.mem_all, true_and, eq_comm]

/-- What a dialect lists is admissible. -/
theorem admissible_toMembers (d : Dialect) : Admissible d.toMembers := by
  refine admissible_iff.mpr fun m listed => ?_
  obtain ⟨s, key, value⟩ := mem_toMembers.mp listed
  exact ⟨⟨s, key⟩, _, value⟩

theorem keys_toMembers (d : Dialect) : Members.keys d.toMembers = Switch.all.map Switch.key := by
  simp only [Members.keys, toMembers, List.map_map]
  rfl

/-- A dialect lists no switch twice. -/
theorem distinct_toMembers (d : Dialect) : d.toMembers.Distinct := by
  have all : Switch.all.Nodup := by decide
  unfold Members.Distinct
  rw [keys_toMembers]
  exact all.map fun s r => Switch.key_inj.mp

/-- **Putting a record over an admissible one hides nothing that is wrong with it.** -/
theorem admissible_putAll (good : Admissible base) (distinctBase : base.Distinct)
    (distinct : ms.Distinct) : Admissible (base.putAll ms) ↔ Admissible ms := by
  -- a member comes from the record above, or from below where that one is silent
  have found {k : Text} {v : Value} : (k, v) ∈ base.putAll ms ↔
      ms.get? k = some v ∨ (ms.get? k = none ∧ (k, v) ∈ base) := by
    rw [Members.mem_iff_get? (distinctBase.putAll ms), Members.get?_putAll_of_distinct distinct,
      Members.mem_iff_get? distinctBase, Option.or_eq_some_iff]
  simp only [admissible_iff] at good ⊢
  constructor
  · intro merged m listed
    exact merged m (found.mpr (.inl ((Members.mem_iff_get? distinct).mp listed)))
  · intro given m listed
    obtain own | ⟨-, under⟩ := found.mp listed
    · exact given m (Members.mem_of_get? own)
    · exact good m under

/-- A record over the record of a dialect moves the switches that it mentions and no others. -/
theorem overlays_putAll (d : Dialect) (distinct : ms.Distinct) :
    Overlays d ms (ofFn (position (d.toMembers.putAll ms))) := by
  have found (s : Switch) : Members.get? (d.toMembers.putAll ms) s.key =
      (ms.get? s.key).or (some (.bool (d.get s))) := by
    have under : (s.key, .bool (d.get s)) ∈ d.toMembers := mem_toMembers.mpr ⟨s, rfl, rfl⟩
    rw [Members.get?_putAll_of_distinct distinct,
      (Members.mem_iff_get? (distinct_toMembers d)).mp under]
  constructor
  · intro s b listed
    rw [Members.mem_iff_get? distinct] at listed
    simp only [get_ofFn, position, found, listed, Option.some_or]
  · intro s absent
    rw [← Members.get?_eq_none_iff] at absent
    simp only [get_ofFn, position, found, absent, Option.none_or]

/-- **A dialect takes a record exactly if it is admissible**, and keeps the switches that the record
does not mention. -/
theorem override?_eq_ok_iff (distinct : ms.Distinct) :
    d.override? ms = .ok e ↔ Admissible ms ∧ Overlays d ms e := by
  unfold override?
  rw [ofMembers?_eq_ok_iff,
    admissible_putAll (admissible_toMembers d) (distinct_toMembers d) distinct]
  exact and_congr_right (overlays_putAll d distinct).eq_iff

end Dialect

end Cosmac
