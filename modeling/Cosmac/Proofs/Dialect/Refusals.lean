import Cosmac.Command.Output
import Cosmac.Proofs.Dialect.Acceptance
import Cosmac.Proofs.Rewriting

/-!
# Files that give no dialect

Why a file gives no dialect, and what the command makes of it. All reasons but one are errors of
what the file says, of which the user is told. The one left over is a profile that is no name: it
passes for one until it is put in small letters, and the failure is not caught.

To tell the user is to show a line, and the line may repeat a name from the file. If the output has
no way to show it, the command breaks off in the attempt (`refusal_reported`).
-/

namespace Cosmac.Dialect.File

open Json

variable {path kind : String} {ms : Members} {v profile : Value} {content : List Byte}

/-- The error is one of what a file says: of its bytes, its text or its data. -/
def Error.isValue : Error → Bool
  | file _ => false
  | profileKind _ => false
  | _ => true

/-- A record stands by a profile that is a value of the given kind instead of a name. -/
inductive Nameless : Value → String → Prop
  | intro {ms : Members} {profile : Value} (only : OnlyProfile ms)
      (listed : (profileKey, profile) ∈ ms) (unnamed : ∀ name, profile ≠ .string name) :
      Nameless (.object ms) profile.kind

/-! ## The errors of a value -/

/-- A refusal of settings is about a value. -/
theorem isValue_of_settings {α : Type} {r : Except Dialect.Error α} {e : Error}
    (refused : r.mapError Error.settings = .error e) : e.isValue = true := by
  cases r with
  | ok a => cases refused
  | error reason =>
    cases refused
    rfl

/-- A refusal of an overlay is about a value. -/
theorem isValue_of_overlaid {base : Dialect} {overlay : Option Value} {e : Error}
    (refused : overlaid path base overlay = .error e) : e.isValue = true := by
  unfold overlaid at refused
  split at refused
  case h_1 => cases refused
  case h_2 => exact isValue_of_settings refused
  case h_3 =>
    cases refused
    rfl

/-- A profile is refused because it is no name, or else for an error of what the file says. -/
theorem profileOf_error {e : Error} (refused : profileOf profile = .error e) :
    e.isValue = true ∨ ((∀ name, profile ≠ .string name) ∧ e = .profileKind profile.kind) := by
  cases profile with
  | string name => exact .inl (isValue_of_settings refused)
  | _ =>
    cases refused
    exact .inr ⟨by simp, rfl⟩

/-- A profile that is not named by a string is refused by its kind. -/
theorem profileOf_of_unnamed (unnamed : ∀ name, profile ≠ .string name) :
    profileOf profile = .error (.profileKind profile.kind) := by
  cases profile with
  | string name => exact absurd rfl (unnamed name)
  | _ => rfl

/-- **A value is refused for what it says, or because a profile is no name.** -/
theorem ofValue_error {e : Error} (refused : ofValue path v = .error e) :
    e.isValue = true ∨ ∃ kind, Nameless v kind ∧ e = .profileKind kind := by
  cases v with
  | object ms =>
    cases found : Members.get? ms profileKey with
    | none =>
      rw [ofValue_flat (Members.get?_eq_none_iff.mp found)] at refused
      exact .inl (isValue_of_settings refused)
    | some profile =>
      simp only [ofValue, found] at refused
      by_cases only : OnlyProfile ms
      · rw [ofProfile_of_only only] at refused
        cases named : profileOf profile with
        | ok p =>
          rw [named] at refused
          exact .inl (isValue_of_overlaid refused)
        | error reason =>
          rw [named] at refused
          cases refused
          obtain said | ⟨unnamed, rfl⟩ := profileOf_error named
          · exact .inl said
          · exact .inr ⟨_, .intro only (Members.mem_of_get? found) unnamed, rfl⟩
      · rw [ofProfile_of_extra only] at refused
        cases refused
        exact .inl rfl
  | _ =>
    cases refused
    exact .inl rfl

/-- A file whose profile has no name is refused by the kind of the profile. -/
theorem Nameless.ofValue (nameless : Nameless v kind) (distinct : v.Distinct) :
    ofValue path v = .error (.profileKind kind) := by
  obtain ⟨only, listed, unnamed⟩ := nameless
  obtain ⟨keys, -⟩ := Value.distinct_object_iff.mp distinct
  rw [Members.mem_iff_get? keys] at listed
  simp only [File.ofValue, listed]
  rw [ofProfile_of_only only, profileOf_of_unnamed unnamed]
  rfl

/-! ## The errors of a file -/

/-- **The bytes of a file are refused for what they say, or because a profile is no name.** -/
theorem ofBytes_error {e : Error} (refused : ofBytes path content = .error e) :
    e.isValue = true ∨ ∃ v kind, Holds content v ∧ Nameless v kind ∧ e = .profileKind kind := by
  cases text : Text.ofUtf8? content with
  | none =>
    simp only [ofBytes, text] at refused
    cases refused
    exact .inl rfl
  | some t =>
    cases data : Json.read (unifyLineEnds t) with
    | error reason =>
      simp only [ofBytes, text, data] at refused
      cases refused
      exact .inl rfl
    | ok v =>
      have holds : Holds content v := ⟨t, text, data⟩
      rw [holds.ofBytes] at refused
      obtain said | ⟨kind, nameless, same⟩ := ofValue_error refused
      · exact .inl said
      · exact .inr ⟨v, kind, holds, nameless, same⟩

/-- The user is told of every error of what a file says. -/
theorem Error.isExpected_of_isValue {e : Error} (said : e.isValue = true) :
    e.isExpected = true := by
  cases e <;> first | rfl | cases said

theorem ofBytes_eq_profileKind_iff : ofBytes path content = .error (.profileKind kind) ↔
    ∃ v, Holds content v ∧ Nameless v kind := by
  constructor
  · intro refused
    obtain said | ⟨v, kind, holds, nameless, same⟩ := ofBytes_error refused
    · cases said
    · cases same
      exact ⟨v, holds, nameless⟩
  · rintro ⟨v, holds, nameless⟩
    rw [holds.ofBytes]
    exact nameless.ofValue holds.distinct

end Cosmac.Dialect.File

namespace Cosmac.Command

open Dialect.File (Holds Nameless)

variable {o : Options} {around : Surroundings} {words : List String} {file : Path}
  {before after : Files} {program data : Files.Content}

/-- A log that is kept once is kept at any later time, as if for the first time. -/
theorem Options.keepLog_again {first : List Effect} (kept : o.keepLog first before = .ok after)
    (effects : List Effect) :
    ∃ last, o.keepLog effects before = .ok last ∧ o.keepLog effects after = .ok last := by
  unfold keepLog at kept ⊢
  cases path : o.logPath? with
  | none =>
    rw [path] at kept
    cases kept
    exact ⟨before, rfl, rfl⟩
  | some path =>
    rw [path] at kept
    exact Files.write_write kept

/-- Where the words are understood and the program is read, its run decides. -/
theorem run_of_readable (asked : Options.read words = .ok o)
    (kept : o.keepLog [] around.files = .ok before)
    (there : before.read o.program.text = .ok program) :
    run around words = runProgram o around before program.toBytes := by
  simp only [run, asked, runOptions, kept, there]

/-- A dialect that is asked for by file is read from the bytes of that file. -/
theorem readDialect_of_file (source : o.dialect = .file file)
    (there : after.read file.text = .ok data) :
    o.readDialect after = Dialect.File.ofBytes file.text data.toBytes := by
  simp only [Options.readDialect, source, Dialect.File.read, there]

/-- The user is told of an error that a file is expected to have, and the status is one. -/
theorem runProgram_of_expected {e : Dialect.File.Error} {content : List Byte}
    (kept : o.keepLog o.announceDialect before = .ok after)
    (refused : o.readDialect after = .error e) (expected : e.isExpected = true) :
    let effects := o.announceDialect ++ [.print ("Error: " ++ e.messageIn around.wording)]
    ∃ last, o.keepLog effects after = .ok last ∧
      runProgram o around before content = ⟨effects, last, .status 1⟩ := by
  intro effects
  -- the line goes into the files as they were before the dialect was announced
  obtain ⟨last, earlier, later⟩ := Options.keepLog_again kept effects
  refine ⟨last, later, ?_⟩
  simp only [runProgram, kept, refused, expected, if_true, conclude]
  rw [earlier]

/-- An error that no file is expected to have ends the command. -/
theorem runProgram_of_unexpected {e : Dialect.File.Error} {content : List Byte}
    (kept : o.keepLog o.announceDialect before = .ok after)
    (refused : o.readDialect after = .error e) (unexpected : e.isExpected = false) :
    ∃ last, o.keepLog o.announceDialect after = .ok last ∧
      runProgram o around before content = ⟨o.announceDialect, last, .failure (.dialect e)⟩ := by
  obtain ⟨last, -, later⟩ := Options.keepLog_again kept o.announceDialect
  refine ⟨last, later, ?_⟩
  simp only [runProgram, kept, refused, unexpected, Bool.false_eq_true, if_false, conclude, later]

/-- No line is shown before the dialect is read. -/
theorem unprinted_announceDialect (o : Options) : ∀ e ∈ o.announceDialect, e.line? = none := by
  unfold Options.announceDialect
  cases o.dialect with
  | profile p => exact List.forall_mem_nil _
  | file path => exact List.forall_mem_singleton.mpr rfl

/-- **A bad file is reported, unless its profile is no name or the report cannot be shown.** Bytes
give a dialect or are refused for what they say, except if they hold a record whose profile is no
name, and that is the one error of another kind. Let the command have a program that can be read and
a dialect from a file with these bytes, and let the words for what cannot be decoded or parsed be
any. When the bytes are refused for what they say, the user is to be shown a line with the error: on
an output that takes the line the command ends with it and the status one, and on any other it breaks
off. When the profile is no name it fails. -/
theorem refusal_reported (content : List Byte) :
    (∀ path : String,
      (((∃ d, Dialect.File.ofBytes path content = .ok d) ∨
          ∃ e, Dialect.File.ofBytes path content = .error e ∧ e.isValue = true) ↔
        ¬ ∃ v kind, Holds content v ∧ Nameless v kind) ∧
      ∀ kind, Dialect.File.ofBytes path content = .error (.profileKind kind) ↔
        ∃ v, Holds content v ∧ Nameless v kind) ∧
    ∀ (out : Output) (around : Surroundings) (words : List String) (o : Options) (file : Path)
      (before : Files) (program : Files.Content), Options.read words = .ok o →
      o.dialect = .file file → o.keepLog [] around.files = .ok before →
      before.read o.program.text = .ok program →
        ∃ after, o.keepLog o.announceDialect before = .ok after ∧
          ∀ data, after.read file.text = .ok data → data.toBytes = content →
            (∀ e, Dialect.File.ofBytes file.text content = .error e → e.isValue = true →
              let line : Text := "Error: " ++ e.messageIn around.wording
              let effects := o.announceDialect ++ [.print line]
              ∃ last, o.keepLog effects after = .ok last ∧
                runOn out around words =
                  if out.takes line then .ended ⟨effects, last, .status 1⟩
                  else .brokenOff o.announceDialect line) ∧
            ∀ v kind, Holds content v → Nameless v kind →
              ∃ last, o.keepLog o.announceDialect after = .ok last ∧
                runOn out around words = .ended
                  ⟨o.announceDialect, last, .failure (.dialect (.profileKind kind))⟩ := by
  refine ⟨fun path => ⟨⟨?_, ?_⟩, fun kind => Dialect.File.ofBytes_eq_profileKind_iff⟩, ?_⟩
  · rintro met ⟨v, kind, holds, nameless⟩
    have escaped : Dialect.File.ofBytes path content = .error (.profileKind kind) :=
      Dialect.File.ofBytes_eq_profileKind_iff.mpr ⟨v, holds, nameless⟩
    rw [escaped] at met
    obtain ⟨d, taken⟩ | ⟨e, refused, said⟩ := met
    · cases taken
    · cases refused
      cases said
  · intro named
    cases taken : Dialect.File.ofBytes path content with
    | ok d => exact .inl ⟨d, rfl⟩
    | error e =>
      obtain said | ⟨v, kind, holds, nameless, -⟩ := Dialect.File.ofBytes_error taken
      · exact .inr ⟨e, rfl, said⟩
      · exact absurd ⟨v, kind, holds, nameless⟩ named
  · intro out around words o file before program asked source kept there
    obtain ⟨after, -, announced⟩ := Options.keepLog_again kept o.announceDialect
    refine ⟨after, announced, ?_⟩
    rintro data found rfl
    have reading := readDialect_of_file source found
    have unprinted := unprinted_announceDialect o
    rw [runOn, run_of_readable asked kept there]
    refine ⟨fun e refused said => ?_, fun v kind holds nameless => ?_⟩
    · rw [refused] at reading
      obtain ⟨last, logged, same⟩ := runProgram_of_expected announced reading
        (Dialect.File.Error.isExpected_of_isValue said)
      refine ⟨last, logged, ?_⟩
      rw [same]
      exact Outcome.on_of_last rfl unprinted
    · rw [Dialect.File.ofBytes_eq_profileKind_iff.mpr ⟨v, holds, nameless⟩] at reading
      obtain ⟨last, logged, same⟩ := runProgram_of_unexpected announced reading rfl
      refine ⟨last, logged, ?_⟩
      rw [same]
      refine Outcome.on_of_taken ?_
      rw [List.filterMap_eq_nil_iff.mpr unprinted]
      exact List.forall_mem_nil _

/-- Words that ask for a program in the dialect of a file. -/
def askingWords : List String :=
  ["program.ch8", "--quirks-file", "dialect.json"]

/-- What these words ask for. -/
def asking : Options where
  program := ⟨"", ["program.ch8"]⟩
  dialect := .file ⟨"", ["dialect.json"]⟩
  pace := .standard
  scale := 10
  seed := none
  headless := false
  frames := 600
  ascii := false
  screenshot := none
  debugLog := none
  verbose := false

theorem read_askingWords : Options.read askingWords = .ok asking := rfl

/-- A program, and a file for the dialect with the given line. -/
def filesWith (line : String) : Files :=
  ⟨[(["program.ch8"], .file (.bytes [0x12, 0x00])),
    (["dialect.json"], .file (.ofLines [line]))]⟩

/-- Every such run reads the program that jumps to itself. -/
theorem program_filesWith (line : String) :
    (filesWith line).read asking.program.text = .ok (.bytes [0x12, 0x00]) :=
  rfl

theorem dialect_filesWith (line : String) :
    (filesWith line).read (Path.text ⟨"", ["dialect.json"]⟩) = .ok (.ofLines [line]) :=
  rfl

/-- A record with a number where a switch is on or off. -/
def numberedSwitch : String :=
  "\x7b\"memory\": 1\x7d"

/-- A record with a number for the name of a profile. -/
def numberedProfile : String :=
  "\x7b\"profile\": 5\x7d"

/-- A record with half of a surrogate pair, by an escape, for the name of a switch. -/
def halvedPair : String :=
  "\x7b\"\\ud800\": true\x7d"

theorem holds_numberedSwitch : Holds (Files.Content.ofLines [numberedSwitch]).toBytes
    (.object [("memory", .number (.int 1))]) := by
  refine ⟨Text.ofString (numberedSwitch ++ "\n"), ?_, ?_⟩ <;> decide +kernel

theorem holds_numberedProfile : Holds (Files.Content.ofLines [numberedProfile]).toBytes
    (.object [(Dialect.File.profileKey, .number (.int 5))]) := by
  refine ⟨Text.ofString (numberedProfile ++ "\n"), ?_, ?_⟩ <;> decide +kernel

theorem holds_halvedPair : Holds (Files.Content.ofLines [halvedPair]).toBytes
    (.object [([.ofNat 0xD800], .bool true)]) := by
  refine ⟨Text.ofString (halvedPair ++ "\n"), ?_, ?_⟩ <;> decide +kernel

theorem nameless_numberedProfile :
    Nameless (.object [(Dialect.File.profileKey, .number (.int 5))]) "int" := by
  refine .intro ?_ List.mem_cons_self (by simp)
  simp [Dialect.File.OnlyProfile, Json.Members.keys]

/-- The content with a number for a switch is refused. -/
theorem refused_numberedSwitch (path : String) :
    Dialect.File.ofBytes path (Files.Content.ofLines [numberedSwitch]).toBytes =
      .error (.settings (.notBool "memory" (.number (.int 1)))) := by
  have known : ∀ k ∈ Json.Members.keys [("memory", .number (.int 1))],
      ∃ s : Switch, k = s.key :=
    List.forall_mem_singleton.mpr ⟨.memory, rfl⟩
  rw [holds_numberedSwitch.ofBytes, Dialect.File.ofValue_flat (by decide), Dialect.ofMembers?,
    Dialect.unknown_eq_nil_iff.mpr known]
  rfl

/-- The line about it repeats the number. -/
theorem messageIn_numberedSwitch (words : Dialect.File.Wording) :
    Text.ofString "Error: " ++
      Dialect.File.Error.messageIn words (.settings (.notBool "memory" (.number (.int 1)))) =
        Text.ofString "Error: Quirk 'memory' must be true or false, got 1" := by
  rfl

/-- The content with a number for its profile is refused by the kind of that number. -/
theorem refused_numberedProfile (path : String) :
    Dialect.File.ofBytes path (Files.Content.ofLines [numberedProfile]).toBytes =
      .error (.profileKind "int") :=
  Dialect.File.ofBytes_eq_profileKind_iff.mpr
    ⟨_, holds_numberedProfile, nameless_numberedProfile⟩

/-- The content with half of a surrogate pair for a switch is refused by that name. -/
theorem refused_halvedPair (path : String) :
    Dialect.File.ofBytes path (Files.Content.ofLines [halvedPair]).toBytes =
      .error (.settings (.unknownSwitches [[.ofNat 0xD800]])) := by
  have unknown : ((Json.Members.keys [([.ofNat 0xD800], .bool true)]).filter fun k =>
      (Dialect.switch? k).isNone) = [[.ofNat 0xD800]] := by
    decide
  have sorted : Dialect.sorted [[CodePoint.ofNat 0xD800]] = [[.ofNat 0xD800]] :=
    List.mergeSort_singleton ..
  rw [holds_halvedPair.ofBytes, Dialect.File.ofValue_flat (by decide), Dialect.ofMembers?, unknown,
    sorted]
  rfl

/-- The line about that record. -/
def halvedLine : Text :=
  Text.ofString "Error: Unknown quirk(s): " ++ [CodePoint.ofNat 0xD800]

/-- The line about it repeats the half. -/
theorem messageIn_halvedPair (words : Dialect.File.Wording) :
    Text.ofString "Error: " ++
      Dialect.File.Error.messageIn words (.settings (.unknownSwitches [[.ofNat 0xD800]])) =
        halvedLine := by
  rfl

/-- No output in UTF-8 takes this line. -/
theorem takes_halvedLine : Output.utf8.takes halvedLine = false := by
  decide +kernel

theorem refusal_reported_number :
    (∃ last, runOn .utf8 { files := filesWith numberedSwitch } askingWords =
      .ended ⟨[.notice (.readingDialect "dialect.json"),
        .print "Error: Quirk 'memory' must be true or false, got 1"], last, .status 1⟩) ∧
    runOn .utf8 { files := filesWith halvedPair } askingWords =
      .brokenOff [.notice (.readingDialect "dialect.json")] halvedLine ∧
    ∃ last, runOn .utf8 { files := filesWith numberedProfile } askingWords =
      .ended ⟨[.notice (.readingDialect "dialect.json")], last,
        .failure (.dialect (.profileKind "int"))⟩ := by
  have outcomes (line : String) := (refusal_reported (Files.Content.ofLines [line]).toBytes).2
    .utf8 { files := filesWith line } askingWords asking ⟨"", ["dialect.json"]⟩ (filesWith line)
    (.bytes [0x12, 0x00]) read_askingWords rfl rfl (program_filesWith line)
  refine ⟨?_, ?_, ?_⟩
  · obtain ⟨after, kept, reported⟩ := outcomes numberedSwitch
    cases kept
    obtain ⟨said, -⟩ := reported _ (dialect_filesWith numberedSwitch) rfl
    obtain ⟨last, -, same⟩ := said _ (refused_numberedSwitch _) rfl
    refine ⟨last, ?_⟩
    rw [same, messageIn_numberedSwitch, Output.takes_utf8_ofString]
    rfl
  · obtain ⟨after, kept, reported⟩ := outcomes halvedPair
    cases kept
    obtain ⟨said, -⟩ := reported _ (dialect_filesWith halvedPair) rfl
    obtain ⟨last, -, same⟩ := said _ (refused_halvedPair _) rfl
    rw [same, messageIn_halvedPair, takes_halvedLine]
    rfl
  · obtain ⟨after, kept, reported⟩ := outcomes numberedProfile
    cases kept
    obtain ⟨-, escaped⟩ := reported _ (dialect_filesWith numberedProfile) rfl
    obtain ⟨last, -, same⟩ := escaped _ _ holds_numberedProfile nameless_numberedProfile
    exact ⟨last, same⟩

/-- **Two files are not reported.** One has a number for the name of a profile: it is refused, but not
for what it says, and the command neither gives a message nor a status. The other has half of a
surrogate pair for the name of a switch: it is refused for what it says, and on an output in UTF-8
the command breaks off in the attempt to repeat the name. -/
theorem numbered_profile_escapes :
    ¬ (∀ (path : String) (content : List Byte),
        (∃ d, Dialect.File.ofBytes path content = .ok d) ∨
          ∃ e, Dialect.File.ofBytes path content = .error e ∧ e.isValue = true) ∧
      (¬ ∀ (around : Surroundings) (words : List String) (o : Options) (program : Files.Content),
        Options.read words = .ok o → o.debugLog = none →
        around.files.read o.program.text = .ok program →
        (∀ d, o.readDialect around.files ≠ .ok d) →
          (run around words).ending = .status 1) ∧
      ¬ ∀ (around : Surroundings) (words : List String) (o : Options) (program : Files.Content)
          (e : Dialect.File.Error),
        Options.read words = .ok o → o.debugLog = none →
        around.files.read o.program.text = .ok program →
        o.readDialect around.files = .error e → e.isValue = true →
          ∃ outcome, runOn .utf8 around words = .ended outcome ∧ outcome.ending = .status 1 := by
  refine ⟨?_, ?_, ?_⟩
  · intro told
    obtain ⟨d, taken⟩ | ⟨e, refused, said⟩ :=
      told "dialect.json" (Files.Content.ofLines [numberedProfile]).toBytes
    · rw [refused_numberedProfile] at taken
      cases taken
    · rw [refused_numberedProfile] at refused
      cases refused
      cases said
  · intro told
    have reading : asking.readDialect (filesWith numberedProfile) = .error (.profileKind "int") :=
      (readDialect_of_file rfl (dialect_filesWith numberedProfile)).trans
        (refused_numberedProfile _)
    have one := told { files := filesWith numberedProfile } askingWords asking _ read_askingWords
      rfl (program_filesWith numberedProfile) fun d taken => by
        rw [reading] at taken
        cases taken
    obtain ⟨last, -, same⟩ := runProgram_of_unexpected rfl reading rfl
    rw [run_of_readable read_askingWords rfl (program_filesWith numberedProfile), same] at one
    cases one
  · intro told
    have reading : asking.readDialect (filesWith halvedPair) =
        .error (.settings (.unknownSwitches [[.ofNat 0xD800]])) :=
      (readDialect_of_file rfl (dialect_filesWith halvedPair)).trans (refused_halvedPair _)
    obtain ⟨outcome, ended, -⟩ := told { files := filesWith halvedPair } askingWords asking _ _
      read_askingWords rfl (program_filesWith halvedPair) reading rfl
    obtain ⟨last, same⟩ : ∃ last,
        runProgram asking { files := filesWith halvedPair } (filesWith halvedPair) [0x12, 0x00] =
          ⟨asking.announceDialect ++ [.print halvedLine], last, .status 1⟩ := by
      obtain ⟨last, -, same⟩ := runProgram_of_expected rfl reading rfl
      exact ⟨last, same.trans (by rw [messageIn_halvedPair])⟩
    have broken : runOn .utf8 { files := filesWith halvedPair } askingWords =
        .brokenOff asking.announceDialect halvedLine := by
      rw [runOn, run_of_readable read_askingWords rfl (program_filesWith halvedPair)]
      refine (Outcome.on_of_last (congrArg Outcome.effects same)
        (unprinted_announceDialect asking)).trans ?_
      rw [takes_halvedLine]
      rfl
    rw [broken] at ended
    cases ended

end Cosmac.Command
