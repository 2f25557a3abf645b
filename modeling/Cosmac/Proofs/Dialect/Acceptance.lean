import Cosmac.Dialect.File
import Cosmac.Proofs.Dialect.Settings
import Cosmac.Proofs.Json.Reading

/-!
# Which files give a dialect

A value asks for the switches of a record over a dialect (`Asks`): a record without a profile over
the dialect with all switches off, a record with one over the profile that it names. It gives a
dialect exactly if the record of switches is admissible, and then the switches stand as that record
says and otherwise as they stand in the dialect below (`file_accepted`).
-/

namespace Cosmac.Dialect.File

open Json

variable {path : String} {ms given : Members} {v profile : Value} {p : Profile} {base d : Dialect}

/-- Nothing stands beside a profile and the switches over it. -/
def OnlyProfile (ms : Members) : Prop :=
  ∀ k ∈ ms.keys, k = profileKey ∨ k = overridesKey

/-- A value asks for the switches of a record over a dialect. -/
inductive Asks : Value → Dialect → Members → Prop
  /-- Without a profile the value is the record itself. -/
  | flat {ms : Members} (plain : profileKey ∉ ms.keys) : Asks (.object ms) {} ms
  /-- A profile alone stands as it is. -/
  | bare {ms : Members} {name : Text} {p : Profile} (only : OnlyProfile ms)
      (named : (profileKey, .string name) ∈ ms) (known : name.toLower = Text.ofString p.name)
      (plain : overridesKey ∉ ms.keys) : Asks (.object ms) p.dialect []
  /-- A profile may have a record of switches over it. -/
  | overridden {ms given : Members} {name : Text} {p : Profile} (only : OnlyProfile ms)
      (named : (profileKey, .string name) ∈ ms) (known : name.toLower = Text.ofString p.name)
      (listed : (overridesKey, .object given) ∈ ms) : Asks (.object ms) p.dialect given

/-! ## Records with a profile -/

/-- No key is unexpected beside a profile exactly if there are only the two. -/
theorem unexpectedKeys_isEmpty_iff : (unexpectedKeys ms).isEmpty = true ↔ OnlyProfile ms := by
  have extra : (unexpectedKeys ms).isEmpty = true ↔
      (ms.keys.filter fun k => k != profileKey && k != overridesKey) = [] := by
    rw [List.isEmpty_iff_length_eq_zero, unexpectedKeys, sorted, List.length_mergeSort,
      List.length_eq_zero_iff]
  simp only [extra, List.filter_eq_nil_iff, Bool.and_eq_true, bne_iff_ne, OnlyProfile, not_and_or,
    ne_eq, not_not]

/-- A profile is known by a string that spells its name, in capitals or not. -/
theorem profileOf_eq_ok_iff : profileOf profile = .ok p ↔
    ∃ name, profile = .string name ∧ name.toLower = Text.ofString p.name := by
  cases profile with
  | string name =>
    simp only [Value.string.injEq, exists_eq_left', ← Profile.ofText?_eq_ok_iff, profileOf]
    cases Profile.ofText? name <;> simp [Except.mapError]
  | _ => simp [profileOf]

/-- The dialect with the switches that are to stand over it, if any are given. -/
def overlaid (path : String) (base : Dialect) : Option Value → Except Error Dialect
  | none => .ok base
  | some (.object given) => (base.override? given).mapError .settings
  | some _ => .error (.overridesNotRecord path)

/-- Another key beside a profile is refused, whatever the profile is. -/
theorem ofProfile_of_extra (extra : ¬ OnlyProfile ms) :
    ofProfile path ms profile = .error (.unexpectedKeys path (unexpectedKeys ms)) := by
  rw [← unexpectedKeys_isEmpty_iff] at extra
  simp only [ofProfile, extra]
  rfl

/-- Without other keys the profile is read first, then overlaid. -/
theorem ofProfile_of_only (only : OnlyProfile ms) : ofProfile path ms profile =
    (profileOf profile).bind fun p => overlaid path p.dialect (ms.get? overridesKey) := by
  rw [← unexpectedKeys_isEmpty_iff] at only
  simp only [ofProfile, only]
  rfl

/-- A profile that is known by its name is overlaid. -/
theorem ofProfile_of_name {name : Text} (only : OnlyProfile ms)
    (known : name.toLower = Text.ofString p.name) :
    ofProfile path ms (.string name) = overlaid path p.dialect (ms.get? overridesKey) := by
  rw [ofProfile_of_only only, profileOf_eq_ok_iff.mpr ⟨name, rfl, known⟩]
  rfl

/-- Wording an error otherwise accepts nothing more. -/
theorem mapError_eq_ok_iff {ε δ α : Type} {f : ε → δ} {r : Except ε α} {a : α} :
    r.mapError f = .ok a ↔ r = .ok a := by
  cases r <;> simp [Except.mapError]

/-- No settings leave every switch. -/
theorem overlays_nil (base : Dialect) : Overlays base [] base where
  given _ _ listed := absurd listed List.not_mem_nil
  kept _ _ := rfl

/-- No switches over a dialect are the empty record over it. -/
theorem overlaid_none : overlaid path base none = overlaid path base (some (.object [])) := by
  have admissible : Admissible [] := ⟨List.forall_mem_nil _, List.forall_mem_nil _⟩
  have same : base.override? [] = .ok base :=
    (override?_eq_ok_iff Members.distinct_nil).mpr ⟨admissible, overlays_nil base⟩
  simp only [overlaid, same, Except.mapError]

/-! ## All values -/

/-- What comes of a record of switches in a file is what comes of it, an error being passed on. -/
theorem settled {r : Except Dialect.Error Dialect}
    (accepted : ∀ d, r = .ok d ↔ Admissible given ∧ Overlays base given d) :
    (∀ d, r.mapError Error.settings = .ok d ↔ Admissible given ∧ Overlays base given d) ∧
      (¬ Admissible given → ∃ e, r.mapError Error.settings = .error (.settings e)) := by
  refine ⟨fun d => mapError_eq_ok_iff.trans (accepted d), fun bad => ?_⟩
  cases r with
  | ok d => exact absurd ((accepted d).mp rfl).1 bad
  | error e => exact ⟨e, rfl⟩

/-- A record without a profile is a record of switches. -/
theorem ofValue_flat (plain : profileKey ∉ ms.keys) :
    ofValue path (.object ms) = (ofMembers? ms).mapError .settings := by
  rw [← Members.get?_eq_none_iff] at plain
  simp only [ofValue, plain]

/-- A record with a known profile is the dialect of that profile, overlaid. -/
theorem ofValue_named {name : Text} (keys : ms.Distinct) (only : OnlyProfile ms)
    (named : (profileKey, .string name) ∈ ms) (known : name.toLower = Text.ofString p.name) :
    ofValue path (.object ms) = overlaid path p.dialect (ms.get? overridesKey) := by
  rw [Members.mem_iff_get? keys] at named
  simp only [ofValue, named]
  exact ofProfile_of_name only known

/-- The keys of the switches that a value asks for are distinct with those of the value. -/
theorem Asks.distinct (asks : Asks v base given) (distinct : v.Distinct) : given.Distinct := by
  cases asks with
  | flat plain => exact (Value.distinct_object_iff.mp distinct).1
  | bare only named known plain => exact Members.distinct_nil
  | overridden only named known listed =>
    obtain ⟨-, all⟩ := Value.distinct_object_iff.mp distinct
    exact (Value.distinct_object_iff.mp (all _ listed)).1

/-- **What a value asks for is what it gives**, if the switches that it mentions are admissible. -/
theorem ofValue_of_asks (asks : Asks v base given) (distinct : v.Distinct) :
    (∀ d, ofValue path v = .ok d ↔ Admissible given ∧ Overlays base given d) ∧
      (¬ Admissible given → ∃ e, ofValue path v = .error (.settings e)) := by
  have mentioned := asks.distinct distinct
  cases asks with
  | flat plain =>
    rw [ofValue_flat plain]
    exact settled fun d => ofMembers?_eq_ok_iff_overlays mentioned
  | bare only named known plain =>
    obtain ⟨keys, -⟩ := Value.distinct_object_iff.mp distinct
    rw [ofValue_named keys only named known, Members.get?_eq_none_iff.mpr plain, overlaid_none]
    exact settled fun d => override?_eq_ok_iff mentioned
  | overridden only named known listed =>
    obtain ⟨keys, -⟩ := Value.distinct_object_iff.mp distinct
    rw [ofValue_named keys only named known, (Members.mem_iff_get? keys).mp listed]
    exact settled fun d => override?_eq_ok_iff mentioned

/-- Whatever gives a dialect asks for one. -/
theorem exists_asks (accepted : ofValue path v = .ok d) : ∃ base given, Asks v base given := by
  cases v with
  | object ms =>
    cases found : Members.get? ms profileKey with
    | none => exact ⟨_, _, .flat (Members.get?_eq_none_iff.mp found)⟩
    | some profile =>
      simp only [ofValue, found] at accepted
      by_cases only : OnlyProfile ms
      · rw [ofProfile_of_only only] at accepted
        cases named : profileOf profile with
        | error e =>
          rw [named] at accepted
          cases accepted
        | ok p =>
          obtain ⟨name, rfl, known⟩ := profileOf_eq_ok_iff.mp named
          have listed := Members.mem_of_get? found
          rw [named] at accepted
          cases moved : Members.get? ms overridesKey with
          | none => exact ⟨_, _, .bare only listed known (Members.get?_eq_none_iff.mp moved)⟩
          | some given =>
            rw [moved] at accepted
            cases given with
            | object given =>
              exact ⟨_, _, .overridden only listed known (Members.mem_of_get? moved)⟩
            | _ => cases accepted
      · rw [ofProfile_of_extra only] at accepted
        cases accepted
  | _ => cases accepted

/-- A value gives a dialect exactly if it asks for an admissible record over the dialect below. -/
theorem ofValue_eq_ok_iff (distinct : v.Distinct) : ofValue path v = .ok d ↔
    ∃ base given, Asks v base given ∧ Admissible given ∧ Overlays base given d := by
  constructor
  · intro taken
    obtain ⟨base, given, asks⟩ := exists_asks taken
    obtain ⟨good, overlay⟩ := ((ofValue_of_asks asks distinct).1 d).mp taken
    exact ⟨base, given, asks, good, overlay⟩
  · rintro ⟨base, given, asks, good, overlay⟩
    exact ((ofValue_of_asks asks distinct).1 d).mpr ⟨good, overlay⟩

/-! ## Files -/

/-- The bytes of a file are those of a text that stands for a value. -/
def Holds (content : List Byte) (v : Value) : Prop :=
  ∃ t, Text.ofUtf8? content = some t ∧ Json.read (unifyLineEnds t) = .ok v

/-- What the reader delivers has no key twice. -/
theorem Holds.distinct {content : List Byte} (holds : Holds content v) : v.Distinct := by
  obtain ⟨t, -, data⟩ := holds
  exact distinct_of_read data

/-- The dialect of bytes is that of the value they hold. -/
theorem Holds.ofBytes {content : List Byte} (holds : Holds content v) :
    ofBytes path content = ofValue path v := by
  obtain ⟨t, text, data⟩ := holds
  simp only [File.ofBytes, text, data]

/-- **Which data gives a dialect, and which.** Data gives a dialect exactly if it asks for an
admissible record of switches over a dialect, and then each switch stands as the record says, or
else as in the dialect below. A value that is neither true nor false is refused wherever a switch
may stand. The keys of all records in a file that can be read are distinct, and reading the file is
reading its data. -/
theorem file_accepted (path : String) :
    (∀ v : Value, v.Distinct →
      ((∃ d, ofValue path v = .ok d) ↔ ∃ base given, Asks v base given ∧ Admissible given) ∧
      (∀ d, ofValue path v = .ok d ↔
        ∃ base given, Asks v base given ∧ Admissible given ∧ Overlays base given d) ∧
      ∀ base given, Asks v base given → ∀ m ∈ given, (∀ b, m.2 ≠ .bool b) →
        ∃ e, ofValue path v = .error (.settings e)) ∧
    ∀ (fs : Files) (content : Files.Content) (v : Value), fs.read path = .ok content →
      Holds content.toBytes v → v.Distinct ∧ read fs path = ofValue path v := by
  refine ⟨fun v distinct => ?_, fun fs content v there holds => ⟨holds.distinct, ?_⟩⟩
  · refine ⟨⟨?_, ?_⟩, fun d => ofValue_eq_ok_iff distinct, ?_⟩
    · rintro ⟨d, taken⟩
      obtain ⟨base, given, asks, good, -⟩ := (ofValue_eq_ok_iff distinct).mp taken
      exact ⟨base, given, asks, good⟩
    · rintro ⟨base, given, asks, good⟩
      have overlay := overlays_putAll base (asks.distinct distinct)
      exact ⟨_, (ofValue_eq_ok_iff distinct).mpr ⟨base, given, asks, good, overlay⟩⟩
    · intro base given asks m listed misfit
      refine (ofValue_of_asks asks distinct).2 fun good => ?_
      obtain ⟨b, same⟩ := good.bools m listed
      exact misfit b same
  · simp only [read, there]
    exact holds.ofBytes

/-- A record that moves one switch of a profile, whose name is in capital letters. -/
def layered : Value :=
  .object [(profileKey, .string "SCHIP"), (overridesKey, .object [("memory", .bool true)])]

/-- The line of a file with that record. -/
def layeredLine : String :=
  "\x7b\"profile\": \"SCHIP\", \"overrides\": \x7b\"memory\": true\x7d\x7d"

/-- The file with that line. -/
def layeredFiles : Files :=
  ⟨[(["dialect.json"], .file (.ofLines [layeredLine]))]⟩

theorem holds_layered : Holds (Files.Content.ofLines [layeredLine]).toBytes layered := by
  refine ⟨Text.ofString (layeredLine ++ "\n"), ?_, ?_⟩ <;> decide +kernel

theorem asks_layered : Asks layered Profile.schip.dialect [("memory", .bool true)] := by
  have only : OnlyProfile [(profileKey, .string "SCHIP"),
      (overridesKey, .object [("memory", .bool true)])] := by
    simp [OnlyProfile, Members.keys]
  have known : Text.toLower "SCHIP" = Text.ofString Profile.schip.name := by decide +kernel
  exact .overridden only List.mem_cons_self known (List.mem_cons_of_mem _ List.mem_cons_self)

theorem file_accepted_layered :
    layered.Distinct ∧ Asks layered Profile.schip.dialect [("memory", .bool true)] ∧
      layeredFiles.read "dialect.json" = .ok (.ofLines [layeredLine]) ∧
      read layeredFiles "dialect.json" = .ok { memory := true, clipping := true, jumping := true } ∧
      ∃ e, ofValue "dialect.json" (.object [("memory", .number (.int 1))]) =
        .error (.settings e) := by
  obtain ⟨values, files⟩ := file_accepted "dialect.json"
  have there : layeredFiles.read "dialect.json" = .ok (.ofLines [layeredLine]) := rfl
  obtain ⟨distinct, same⟩ := files layeredFiles _ layered there holds_layered
  obtain ⟨-, accepted, -⟩ := values layered distinct
  have good : Admissible [("memory", .bool true)] := by
    refine admissible_iff.mpr (List.forall_mem_singleton.mpr ?_)
    exact ⟨⟨.memory, rfl⟩, true, rfl⟩
  have overlay : Overlays Profile.schip.dialect [("memory", .bool true)]
      { memory := true, clipping := true, jumping := true } := by
    constructor
    · intro s b listed
      rw [List.mem_singleton, Prod.mk.injEq, Value.bool.injEq] at listed
      obtain ⟨key, rfl⟩ := listed
      rw [Switch.key_inj (r := .memory).mp key]
      rfl
    · intro s absent
      cases s with
      | memory => exact absurd List.mem_cons_self absent
      | _ => rfl
  have misfit : Value.Distinct (.object [("memory", .number (.int 1))]) :=
    Value.distinct_object_iff.mpr
      ⟨List.nodup_singleton _, List.forall_mem_singleton.mpr (.number _)⟩
  refine ⟨distinct, asks_layered, there, ?_, ?_⟩
  · rw [same]
    exact (accepted _).mpr ⟨_, _, asks_layered, good, overlay⟩
  · exact (values _ misfit).2.2 {} _ (.flat (by decide)) _ List.mem_cons_self (by simp)

end Cosmac.Dialect.File
