import Cosmac.Operation
import Cosmac.Proofs.FrameSteps

/-!
# Either speaker will do

A speaker is only ever started and stopped. Under the same calls the looped speaker sounds exactly
when the silent one does, and it asks the mixer to play as often as the silent one is turned on
(`InTune`). What the mixer sees of it is a row of notes: each time the sound is played, and then the
channel that was given for it is stopped, if there was one. Only the last note may still sound
(`History`).

Frames choose their calls by the sound timer alone, so a console makes the same calls whatever its
speaker (`exists_calls`).
-/

namespace Cosmac

/-- What a mixer sees of a speaker. -/
inductive Mixer.Event where
  /-- The sound was played, on a channel if there was one. -/
  | played (channel? : Option Nat)
  | stopped (channel? : Option Nat)
  deriving DecidableEq, Repr

namespace Speaker

/-- The two things that can be asked of a speaker. -/
inductive Call where
  | start
  | stop
  deriving DecidableEq, Repr

/-- The mixer is asked to play. -/
def Action.asksToPlay : Action → Bool
  | .request (.play _) => true
  | _ => false

/-! ## Calls one after another -/

/-- The silent speaker after a call. -/
def Silent.call (s : Silent) : Call → Silent
  | .start => s.start
  | .stop => s.stop

/-- The silent speaker after a number of calls. -/
def Silent.after (s : Silent) (calls : List Call) : Silent :=
  calls.foldl call s

namespace Looped

/-- What the looped speaker makes of a call. -/
def call (s : Looped) : Call → Looped × List Action
  | .start => s.start
  | .stop => s.stop

/-- The looped speaker after a number of calls. -/
def after (s : Looped) (calls : List Call) : Looped :=
  calls.foldl (fun s c => (s.call c).1) s

/-- What the looped speaker does in the course of a number of calls, in order. -/
def actions (s : Looped) : List Call → List Action
  | [] => []
  | c :: calls => (s.call c).2 ++ (s.call c).1.actions calls

/-- The channel that a mixer gives for the request to play of a given number. -/
def given (grants : Nat → Bool) (n : Nat) : Option Nat :=
  if grants n then some n else none

/-- What the mixer sees of an action of the speaker. It answers a request to play itself, whatever
the speaker makes of the answer; the channel that is stopped is the one that the speaker holds. -/
def event? (s : Looped) : Action → Option Mixer.Event
  | .request (.play _) => some (.played (given s.grants s.plays))
  | .request .stopChannel => some (.stopped s.channel)
  | _ => none

/-- What the mixer sees of a call. -/
def events (s : Looped) (c : Call) : List Mixer.Event :=
  (s.call c).2.filterMap s.event?

/-- What the mixer sees of a number of calls, in order. -/
def trace (s : Looped) : List Call → List Mixer.Event
  | [] => []
  | c :: calls => s.events c ++ (s.call c).1.trace calls

variable {s : Looped}

theorem after_append (s : Looped) (first last : List Call) :
    s.after (first ++ last) = (s.after first).after last :=
  List.foldl_append

/-- The speaker after the sound was played. -/
def sounding (s : Looped) : Looped :=
  { s with playing := true, plays := s.plays + 1, channel := given s.grants s.plays }

/-- The speaker after the sound was stopped. -/
def silenced (s : Looped) : Looped :=
  { s with playing := false, channel := none }

/-- **The speaker plays the sound, stops it or does nothing.** -/
theorem call_cases (s : Looped) (c : Call) :
    (c = .start ∧ s.playing = false ∧
        s.call c = (s.sounding, [.request (.play (-1)), .toneOn s.pitch])) ∨
      (c = .stop ∧ s.playing = true ∧ s.call c =
        (s.silenced, (if s.channel.isSome then [.request .stopChannel] else []) ++ [.toneOff])) ∨
      ((s.playing = true ↔ c = .start) ∧ s.call c = (s, [])) := by
  cases c with
  | start =>
    by_cases sounds : s.playing = true
    · exact .inr (.inr ⟨iff_of_true sounds rfl, if_pos sounds⟩)
    · exact .inl ⟨rfl, Bool.eq_false_iff.mpr sounds, if_neg sounds⟩
  | stop =>
    by_cases sounds : s.playing = true
    · exact .inr (.inl ⟨rfl, sounds, if_pos sounds⟩)
    · exact .inr (.inr ⟨iff_of_false sounds nofun, if_neg sounds⟩)

/-- What the mixer sees of each of these. -/
theorem events_cases (s : Looped) (c : Call) :
    (c = .start ∧ s.playing = false ∧ (s.call c).1 = s.sounding ∧
        s.events c = [.played (given s.grants s.plays)]) ∨
      (c = .stop ∧ s.playing = true ∧ (s.call c).1 = s.silenced ∧
        s.events c = s.channel.toList.map fun n => .stopped (some n)) ∨
      ((s.call c).1 = s ∧ s.events c = []) := by
  unfold events
  obtain ⟨start, quiet, same⟩ | ⟨stop, sounds, same⟩ | ⟨-, same⟩ := s.call_cases c
  · rw [same]
    exact .inl ⟨start, quiet, rfl, rfl⟩
  · rw [same]
    refine .inr (.inl ⟨stop, sounds, rfl, ?_⟩)
    cases held : s.channel with
    | none => rfl
    | some n => simp [event?, held]
  · rw [same]
    exact .inr (.inr ⟨rfl, rfl⟩)

end Looped

/-! ## In tune -/

/-- The looped speaker sounds exactly if the silent one does, and it has asked the mixer to play as
often as the silent one was turned on. -/
structure InTune (s : Looped) (t : Silent) : Prop where
  playing : s.playing = t.playing
  plays : s.plays = t.activations

/-- **One call keeps the speakers in tune**, and the looped one asks the mixer to play exactly if
the call turns the silent one on. -/
theorem InTune.call {s : Looped} {t : Silent} (inTune : InTune s t) (c : Call) :
    InTune (s.call c).1 (t.call c) ∧
      t.activations + (s.call c).2.countP Action.asksToPlay = (t.call c).activations := by
  obtain ⟨playing, plays⟩ := inTune
  obtain ⟨rfl, quiet, same⟩ | ⟨rfl, sounds, same⟩ | ⟨idle, same⟩ := s.call_cases c
  · have off : t.playing = false := playing.symm.trans quiet
    have next : t.call .start = ⟨true, t.activations + 1⟩ := if_neg (by rw [off]; decide)
    rw [same, next]
    exact ⟨⟨rfl, congrArg (· + 1) plays⟩, rfl⟩
  · rw [same]
    refine ⟨⟨rfl, plays⟩, ?_⟩
    cases s.channel <;> rfl
  · have next : t.call c = t := by
      rw [playing] at idle
      cases c with
      | start => exact if_pos (idle.mpr rfl)
      | stop =>
        have off : t.playing = false := Bool.eq_false_iff.mpr fun on => nomatch idle.mp on
        show ({ t with playing := false } : Silent) = t
        rw [← off]
    rw [same, next]
    exact ⟨⟨playing, plays⟩, rfl⟩

/-- Calls keep the two speakers in tune, and each request to play is an activation. -/
theorem InTune.after {s : Looped} {t : Silent} (inTune : InTune s t) (calls : List Call) :
    InTune (s.after calls) (t.after calls) ∧
      t.activations + (s.actions calls).countP Action.asksToPlay = (t.after calls).activations := by
  induction calls generalizing s t with
  | nil => exact ⟨inTune, rfl⟩
  | cons c calls ih =>
    obtain ⟨next, counted⟩ := inTune.call c
    obtain ⟨last, total⟩ := ih next
    refine ⟨last, ?_⟩
    rw [Looped.actions, List.countP_append, ← Nat.add_assoc, counted]
    exact total

/-! ## Notes -/

namespace Looped

/-- What the mixer sees of a tone from its beginning to its end. -/
def note (grants : Nat → Bool) (n : Nat) : List Mixer.Event :=
  .played (given grants n) :: (given grants n).toList.map fun n => .stopped (some n)

/-- What the mixer has seen of a speaker: a number of notes, and the beginning of one more if the
speaker sounds. It holds the channel of that last note and none otherwise. -/
inductive History : Looped → List Mixer.Event → Prop
  | quiet {s : Looped} : s.playing = false → s.channel = none →
      History s ((List.range s.plays).flatMap (note s.grants))
  | sounds {s : Looped} {n : Nat} : s.playing = true → s.plays = n + 1 →
      s.channel = given s.grants n →
      History s ((List.range n).flatMap (note s.grants) ++ [.played s.channel])

/-- One call adds its events to the history. -/
theorem History.call {s : Looped} {seen : List Mixer.Event} (history : s.History seen) (c : Call) :
    (s.call c).1.History (seen ++ s.events c) := by
  obtain ⟨-, quiet, same, events⟩ | ⟨-, sounds, same, events⟩ | ⟨same, events⟩ := s.events_cases c
  · rw [same, events]
    cases history with
    | quiet => exact .sounds rfl rfl rfl
    | sounds on =>
      rw [quiet] at on
      cases on
  · rw [same, events]
    cases history with
    | quiet off =>
      rw [sounds] at off
      cases off
    | @sounds n _ plays channel =>
      have ended : (List.range n).flatMap (note s.grants) ++ [.played s.channel] ++
          (s.channel.toList.map fun n => .stopped (some n)) =
          (List.range s.silenced.plays).flatMap (note s.silenced.grants) := by
        have plays : s.silenced.plays = n + 1 := plays
        rw [plays, List.range_succ, List.flatMap_append, channel, List.append_assoc]
        simp [note, silenced]
      rw [ended]
      exact .quiet rfl rfl
  · rw [same, events, List.append_nil]
    exact history

/-- Calls one after another add their events to the history. -/
theorem History.after {s : Looped} {seen : List Mixer.Event} (history : s.History seen)
    (calls : List Call) : (s.after calls).History (seen ++ s.trace calls) := by
  induction calls generalizing s seen with
  | nil =>
    rw [trace, List.append_nil]
    exact history
  | cons c calls ih =>
    rw [trace, ← List.append_assoc]
    exact ih (history.call c)

/-- A channel that is stopped was asked for. -/
theorem mem_notes {grants : Nat → Bool} {ns : List Nat} {n : Nat} :
    .stopped (some n) ∈ ns.flatMap (note grants) → n ∈ ns := by
  intro seen
  obtain ⟨k, listed, seen⟩ := List.mem_flatMap.mp seen
  cases granted : grants k with
  | false => simp [note, given, granted] at seen
  | true =>
    have same : n = k := by simpa [note, given, granted] using seen
    exact same ▸ listed

/-- The sound is played on a channel at the beginning of a note, or after it. -/
theorem split_note {grants : Nat → Bool} {k n : Nat} {first rest more : List Mixer.Event}
    (same : note grants k ++ more = first ++ .played (some n) :: rest) :
    (k = n ∧ first = [] ∧ rest = .stopped (some n) :: more) ∨
      ∃ later, first = note grants k ++ later ∧ more = later ++ .played (some n) :: rest := by
  cases granted : grants k with
  | false =>
    have short : note grants k = [.played none] := by simp [note, given, granted]
    rw [short] at same ⊢
    cases first with
    | nil => cases same
    | cons e first =>
      obtain ⟨head, tail⟩ := List.cons.inj same
      exact .inr ⟨first, congrArg (· :: first) head.symm, tail⟩
  | true =>
    have long : note grants k = [.played (some k), .stopped (some k)] := by
      simp [note, given, granted]
    rw [long] at same ⊢
    match first, same with
    | [], same =>
      cases same
      exact .inl ⟨rfl, rfl, rfl⟩
    | [e], same => cases same
    | e :: e' :: first, same =>
      cases same
      exact .inr ⟨first, rfl, rfl⟩

/-- Where the sound was played on a channel in a row of notes, the note of that channel begins. -/
theorem split_notes {grants : Nat → Bool} {n : Nat} {rest last : List Mixer.Event}
    (ns : List Nat) {first : List Mixer.Event}
    (same : ns.flatMap (note grants) ++ last = first ++ .played (some n) :: rest) :
    (∃ before behind, ns = before ++ n :: behind ∧ first = before.flatMap (note grants) ∧
        rest = .stopped (some n) :: (behind.flatMap (note grants) ++ last)) ∨
      ∃ later, first = ns.flatMap (note grants) ++ later ∧
        last = later ++ .played (some n) :: rest := by
  induction ns generalizing first with
  | nil => exact .inr ⟨first, rfl, same⟩
  | cons k ns ih =>
    rw [List.flatMap_cons, List.append_assoc] at same
    obtain ⟨rfl, rfl, stop⟩ | ⟨middle, rfl, further⟩ := split_note same
    · exact .inl ⟨[], ns, rfl, rfl, stop⟩
    · obtain ⟨before, behind, range, passed, stop⟩ | ⟨later, passed, stop⟩ := ih further
      · exact .inl ⟨k :: before, behind, congrArg (k :: ·) range,
          congrArg (note grants k ++ ·) passed, stop⟩
      · refine .inr ⟨later, ?_, stop⟩
        rw [passed, List.flatMap_cons, List.append_assoc]

/-- Every number below a bound is there once. -/
theorem not_mem_of_split {before behind : List Nat} {n k : Nat}
    (range : List.range k = before ++ n :: behind) : n ∉ before ∧ n ∉ behind := by
  have distinct : (before ++ n :: behind).Nodup := range ▸ List.nodup_range
  rw [List.nodup_append, List.nodup_cons] at distinct
  obtain ⟨-, ⟨later, -⟩, apart⟩ := distinct
  exact ⟨fun earlier => apart n earlier n List.mem_cons_self rfl, later⟩

/-- **A channel is stopped once, and next,** after the sound was played on it, or the sound still
plays on it. -/
theorem History.stopped {s : Looped} {seen first rest : List Mixer.Event} {n : Nat}
    (history : s.History seen) (same : seen = first ++ .played (some n) :: rest) :
    .stopped (some n) ∉ first ∧
      ((∃ later, rest = .stopped (some n) :: later ∧ .stopped (some n) ∉ later) ∨
        (rest = [] ∧ s.playing = true ∧ s.channel = some n)) := by
  cases history with
  | quiet =>
    rw [← List.append_nil (List.flatMap _ _)] at same
    obtain ⟨before, behind, range, rfl, rfl⟩ | ⟨later, -, nothing⟩ := split_notes _ same
    · obtain ⟨earlier, later⟩ := not_mem_of_split range
      rw [List.append_nil]
      exact ⟨mt mem_notes earlier, .inl ⟨_, rfl, mt mem_notes later⟩⟩
    · simp at nothing
  | @sounds k on plays channel =>
    obtain ⟨before, behind, range, rfl, rfl⟩ | ⟨later, rfl, single⟩ := split_notes _ same
    · obtain ⟨earlier, later⟩ := not_mem_of_split range
      refine ⟨mt mem_notes earlier, .inl ⟨_, rfl, ?_⟩⟩
      rw [List.mem_append, not_or]
      exact ⟨mt mem_notes later, by simp⟩
    · cases later with
      | nil =>
        obtain ⟨head, tail⟩ := List.cons.inj single
        have held : s.channel = some n := Mixer.Event.played.inj head
        -- this channel was given for the request after all those of the complete notes
        have number : k = n := by
          unfold given at channel
          split at channel
          · exact Option.some.inj (channel.symm.trans held)
          · rw [channel] at held
            cases held
        refine ⟨?_, .inr ⟨tail.symm, on, held⟩⟩
        rw [List.append_nil]
        rw [number]
        exact fun stopped => absurd (List.mem_range.mp (mem_notes stopped)) (Nat.lt_irrefl n)
      | cons e later => simp at single

/-- A speaker that is not playing holds no channel. -/
theorem History.channel {s : Looped} {seen : List Mixer.Event} (history : s.History seen)
    (quiet : s.playing = false) : s.channel = none := by
  cases history with
  | quiet _ none => exact none
  | sounds on =>
    rw [quiet] at on
    cases on

/-! ## From one request to play to the next -/

/-- The call of number `i` asks the mixer to play. -/
def AsksAt (s : Looped) (calls : List Call) (i : Nat) : Prop :=
  ∃ c, calls[i]? = some c ∧ 0 < ((s.after (calls.take i)).call c).2.countP Action.asksToPlay

/-- One call more is one call later. -/
theorem after_take_succ {s : Looped} {calls : List Call} {i : Nat} {c : Call}
    (number : calls[i]? = some c) :
    s.after (calls.take (i + 1)) = ((s.after (calls.take i)).call c).1 := by
  rw [List.take_add_one, number, after_append]
  rfl

/-- Only a speaker that is quiet asks the mixer to play, and then it sounds. -/
theorem AsksAt.playing {s : Looped} {calls : List Call} {i : Nat} (asks : s.AsksAt calls i) :
    (s.after (calls.take i)).playing = false ∧ (s.after (calls.take (i + 1))).playing = true := by
  obtain ⟨c, number, asked⟩ := asks
  rw [after_take_succ number]
  obtain ⟨-, quiet, same⟩ | ⟨-, -, same⟩ | ⟨-, same⟩ := (s.after (calls.take i)).call_cases c
  · rw [same]
    exact ⟨quiet, rfl⟩
  · rw [same] at asked
    cases held : (s.after (calls.take i)).channel <;> simp [held, Action.asksToPlay] at asked
  · rw [same] at asked
    cases asked

end Looped

/-- What holds first and does not hold later stops holding in between. -/
theorem exists_last (holds : Nat → Bool) {i j : Nat} (before : i ≤ j) (first : holds i = true)
    (later : holds j = false) : ∃ k, i ≤ k ∧ k < j ∧ holds k = true ∧ holds (k + 1) = false := by
  induction before with
  | refl =>
    rw [first] at later
    cases later
  | @step j before ih =>
    cases now : holds j with
    | true => exact ⟨j, before, Nat.lt_succ_self j, now, later⟩
    | false =>
      obtain ⟨k, after, within, stop⟩ := ih now
      exact ⟨k, after, Nat.lt_succ_of_lt within, stop⟩

/-! ## Speakers of either kind -/

/-- What a speaker makes of a call. -/
def call (s : Speaker) : Call → Speaker × List Action
  | .start => s.start
  | .stop => s.stop

/-- A speaker after a number of calls. -/
def after (s : Speaker) (calls : List Call) : Speaker :=
  calls.foldl (fun s c => (s.call c).1) s

/-- A silent speaker stays silent through all calls. -/
theorem after_silent (t : Silent) (calls : List Call) :
    (silent t).after calls = silent (t.after calls) := by
  induction calls generalizing t with
  | nil => rfl
  | cons c calls ih =>
    have first : ((silent t).call c).1 = silent (t.call c) := by cases c <;> rfl
    rw [after, List.foldl_cons, first]
    exact ih (t.call c)

/-- A looping speaker goes on looping through all calls. -/
theorem after_looped (s : Looped) (calls : List Call) :
    (looped s).after calls = looped (s.after calls) := by
  induction calls generalizing s with
  | nil => rfl
  | cons c calls ih =>
    have first : ((looped s).call c).1 = looped (s.call c).1 := by cases c <;> rfl
    rw [after, List.foldl_cons, first]
    exact ih (s.call c).1

theorem after_append (s : Speaker) (first last : List Call) :
    s.after (first ++ last) = (s.after first).after last :=
  List.foldl_append

end Speaker

namespace Console

open Speaker

variable {s : Setup} {pace : Pace} {c : Console}

/-- The console with another speaker. -/
def withSpeaker (c : Console) (speaker : Speaker) : Console :=
  { c with speaker }

/-- Following the sound timer is one call: stop at zero, else start. -/
theorem follow_eq_call (speaker : Speaker) (sound : Byte) :
    follow speaker sound = speaker.call (if sound = 0 then .stop else .start) := by
  unfold follow
  split <;> rfl

/-- A frame calls its speaker once, unless it meets a fault, and no choice of it depends on the
speaker. -/
theorem exists_calls_frame (s : Setup) (pace : Pace) (accepts : Bool) (c : Console) :
    ∃ calls, ∀ speaker, ((c.withSpeaker speaker).frame s pace accepts).console =
      (c.frame s pace accepts).console.withSpeaker (speaker.after calls) := by
  simp only [frame, withSpeaker, follow_eq_call]
  generalize Running.steps s ⟨c.machine, [], none⟩ pace.instructions = run
  cases run.fault? with
  | some f => exact ⟨[], fun _ => rfl⟩
  | none =>
    refine ⟨[if run.machine.sound = 0 then .stop else .start], fun speaker => ?_⟩
    cases run.machine.tickTimers.dirty with
    | false => rfl
    | true => cases accepts <;> rfl

/-- **A console makes the same calls whatever its speaker**, and does all else alike. -/
theorem exists_calls (s : Setup) (pace : Pace) (c : Console) (ops : List Operation) :
    ∃ calls, ∀ speaker, (c.withSpeaker speaker).afterAll s pace ops =
      (c.afterAll s pace ops).withSpeaker (speaker.after calls) := by
  induction ops generalizing c with
  | nil => exact ⟨[], fun _ => rfl⟩
  | cons op ops ih =>
    obtain ⟨now, first⟩ : ∃ calls, ∀ speaker,
        ((c.withSpeaker speaker).operate s pace op).console =
          (c.operate s pace op).console.withSpeaker (speaker.after calls) := by
      cases op with
      | frame accepts => exact exists_calls_frame s pace accepts c
      | _ => exact ⟨[], fun _ => rfl⟩
    obtain ⟨later, rest⟩ := ih (c.operate s pace op).console
    refine ⟨now ++ later, fun speaker => ?_⟩
    show ((c.withSpeaker speaker).operate s pace op).console.afterAll s pace ops = _
    rw [first, rest, after_append]
    rfl

end Console

namespace Speaker

/-- **Either speaker will do.** Take a looped speaker as it is made, with any pitch and any mixer.
After any calls it sounds exactly if the silent speaker does, it has asked the mixer to play as
often as the silent one was turned on, and it holds no channel unless it sounds. Between two
requests to play it goes from sounding to not sounding. Each channel that the mixer answered with is
stopped exactly once, before anything else happens to the mixer, unless it is the last one and the
speaker still sounds; so the speaker loses none. Whatever is done with a console comes down to the
same calls of either speaker, and everything else about it is the same. -/
theorem looped_like_silent (pitch : String) (grants : Nat → Bool) :
    let looped : Looped := { pitch, grants }
    let silent : Silent := {}
    (∀ calls : List Call,
      (looped.after calls).playing = (silent.after calls).playing ∧
        (looped.actions calls).countP Action.asksToPlay = (silent.after calls).activations ∧
        ((looped.after calls).playing = false → (looped.after calls).channel = none) ∧
        (∀ i j, i < j → looped.AsksAt calls i → looped.AsksAt calls j → ∃ k, i < k ∧ k < j ∧
          (looped.after (calls.take k)).playing = true ∧
          (looped.after (calls.take (k + 1))).playing = false) ∧
        ∀ first n rest, looped.trace calls = first ++ .played (some n) :: rest →
          .stopped (some n) ∉ first ∧
            ((∃ later, rest = .stopped (some n) :: later ∧ .stopped (some n) ∉ later) ∨
              (rest = [] ∧ (looped.after calls).playing = true ∧
                (looped.after calls).channel = some n))) ∧
      ∀ (s : Setup) (pace : Pace) (c : Console) (ops : List Console.Operation), ∃ calls,
        (c.withSpeaker (.looped looped)).afterAll s pace ops =
            (c.afterAll s pace ops).withSpeaker (.looped (looped.after calls)) ∧
          (c.withSpeaker (.silent silent)).afterAll s pace ops =
            (c.afterAll s pace ops).withSpeaker (.silent (silent.after calls)) := by
  intro looped silent
  constructor
  · intro calls
    obtain ⟨⟨playing, -⟩, asked⟩ := InTune.after (s := looped) (t := silent) ⟨rfl, rfl⟩ calls
    have history : (looped.after calls).History (looped.trace calls) :=
      Looped.History.after (.quiet rfl rfl) calls
    refine ⟨playing, (Nat.zero_add _).symm.trans asked, history.channel, ?_, ?_⟩
    · intro i j before earlier later
      obtain ⟨k, behind, within, stop⟩ :=
        exists_last (fun k => (looped.after (calls.take k)).playing) before earlier.playing.2
          later.playing.1
      exact ⟨k, behind, within, stop⟩
    · intro first n rest seen
      exact history.stopped seen
  · intro s pace c ops
    obtain ⟨calls, same⟩ := Console.exists_calls s pace c ops
    refine ⟨calls, ?_, ?_⟩
    · rw [same, after_looped]
    · rw [same, after_silent]

/-- A mixer that has no channel for the second request to play. -/
def crowded (n : Nat) : Bool :=
  n != 1

/-- Three tones, with calls in between that mean nothing. -/
def threeTones : List Call :=
  [.start, .start, .stop, .stop, .start, .stop, .start]

theorem looped_like_silent_crowded :
    let looped : Looped := { pitch := "432", grants := crowded }
    let silent : Silent := {}
    (looped.after threeTones).playing = (silent.after threeTones).playing ∧
      (looped.actions threeTones).countP Action.asksToPlay = 3 ∧
      ((looped.after (threeTones.take 3)).playing = false ∧
        (looped.after (threeTones.take 3)).channel = none) ∧
      (looped.AsksAt threeTones 0 ∧ looped.AsksAt threeTones 4 ∧ ∃ k, 0 < k ∧ k < 4 ∧
        (looped.after (threeTones.take k)).playing = true ∧
        (looped.after (threeTones.take (k + 1))).playing = false) ∧
      looped.trace threeTones =
        [.played (some 0), .stopped (some 0), .played none, .played (some 2)] ∧
      ((∃ later, [Mixer.Event.stopped (some 0), .played none, .played (some 2)] =
          .stopped (some 0) :: later ∧ .stopped (some 0) ∉ later) ∨
        ([Mixer.Event.stopped (some 0), .played none, .played (some 2)] = [] ∧
          (looped.after threeTones).playing = true ∧
          (looped.after threeTones).channel = some 0)) := by
  intro looped silent
  have law := (looped_like_silent "432" crowded).1
  obtain ⟨playing, asked, -, between, stopped⟩ := law threeTones
  obtain ⟨-, -, unheld, -⟩ := law (threeTones.take 3)
  have quiet : (looped.after (threeTones.take 3)).playing = false := rfl
  have first : looped.AsksAt threeTones 0 := ⟨.start, rfl, by decide⟩
  have second : looped.AsksAt threeTones 4 := ⟨.start, rfl, by decide⟩
  have seen : looped.trace threeTones =
      [.played (some 0), .stopped (some 0), .played none, .played (some 2)] := rfl
  exact ⟨playing, asked, ⟨quiet, unheld quiet⟩,
    ⟨first, second, between 0 4 (by decide) first second⟩, seen, (stopped [] 0 _ seen).2⟩

end Speaker

end Cosmac
