import Cosmac.Proofs.Deeds
import Cosmac.Proofs.FrameCounts

/-!
# How long a tone lasts

A frame turns the speaker on or off before it counts the timers down. So the speaker sounds after as
many frames as the sound timer says, and it is turned on by the frames whose timer runs although
that of the frame before did not (`begins`). What ends with a fault is no frame here: it leaves the
speaker and does not count the timers down (`frame_tone`).
-/

namespace Cosmac

namespace Speaker

/-- How often the tone was turned on. -/
def activations : Speaker → Nat
  | silent s => s.activations
  | looped s => s.plays

/-- To be started turns a speaker on unless it sounds. -/
theorem activations_start (s : Speaker) :
    s.start.1.activations = s.activations + (!s.playing).toNat := by
  cases s with
  | silent s =>
    simp only [start, Silent.start, activations, playing]
    cases s.playing <;> rfl
  | looped s =>
    simp only [start, Looped.start, activations, playing]
    cases s.playing <;> rfl

/-- To stop is no activation. -/
theorem activations_stop (s : Speaker) : s.stop.1.activations = s.activations := by
  cases s with
  | silent s => rfl
  | looped s =>
    simp only [stop, Looped.stop, activations]
    cases s.playing <;> rfl

end Speaker

namespace Console

open Machine

variable {s : Setup} {pace : Pace} {c : Console} {op : Operation} {ops : List Operation}

/-! ## One frame -/

/-- Following the sound timer activates a speaker that is not playing, if the timer runs. -/
theorem activations_follow (speaker : Speaker) (sound : Byte) :
    (follow speaker sound).1.activations =
      speaker.activations + (decide (sound ≠ 0) && !speaker.playing).toNat := by
  unfold follow
  by_cases off : sound = 0
  · rw [if_pos off, Speaker.activations_stop, decide_eq_false fun on => on off]
    rfl
  · rw [if_neg off, Speaker.activations_start, decide_eq_true off, Bool.true_and]

/-- No fault ended the frame. -/
def FrameResult.completed (r : FrameResult) : Bool :=
  match r.ending with
  | .fault _ => false
  | _ => true

/-- The sound timer ran when the frame was about to count it down. -/
def Played.sounds (s : Setup) (pace : Pace) (p : Played) : Bool :=
  decide ((p.start.framed s pace).machine.sound ≠ 0)

/-- **A frame that is completed lets the speaker follow the sound timer and counts both timers
down.** A fault keeps it from both. -/
theorem frame_tone (s : Setup) (pace : Pace) (accepts : Bool) (c : Console) :
    let run := (c.framed s pace).machine
    let result := c.frame s pace accepts
    (result.completed = false ∧ result.console.speaker = c.speaker ∧
        result.console.machine = run) ∨
      (result.completed = true ∧ result.console.speaker = (follow c.speaker run.sound).1 ∧
        ∀ timer, result.console.machine.timer timer = tick (run.timer timer)) := by
  intro run result
  have same : result = c.frame s pace accepts := rfl
  obtain ⟨f, -, faulty⟩ | ⟨-, -, done⟩ | ⟨-, -, -, done⟩ | ⟨-, -, -, done⟩ :=
    frame_cases s pace accepts c
  · rw [same, faulty]
    exact .inl ⟨rfl, rfl, rfl⟩
  all_goals
    rw [same, done]
    exact .inr ⟨rfl, rfl, fun timer => by cases timer <;> rfl⟩

/-! ## Frames among operations -/

/-- The frame that an operation is, if it is one that is completed. -/
def completedOf? (s : Setup) (pace : Pace) (c : Console) : Operation → Option Played
  | .frame accepts =>
    let result := c.frame s pace accepts
    if result.completed then some ⟨c, result⟩ else none
  | _ => none

/-- The completed frames among operations that are done one after another, in order. -/
def completed (s : Setup) (pace : Pace) (c : Console) : List Operation → List Played
  | [] => []
  | op :: ops =>
    (c.completedOf? s pace op).toList ++ (c.operate s pace op).console.completed s pace ops

/-- **An operation is a completed frame or leaves the speaker alone.** -/
theorem completedOf_cases (s : Setup) (pace : Pace) (c : Console) (op : Operation) :
    let next := (c.operate s pace op).console
    let run := (c.framed s pace).machine
    (c.completedOf? s pace op = none ∧ next.speaker = c.speaker) ∨
      (c.completedOf? s pace op = some ⟨c, c.operate s pace op⟩ ∧
        next.speaker = (follow c.speaker run.sound).1) := by
  intro next run
  cases op with
  | frame accepts =>
    obtain ⟨faulty, speaker, -⟩ | ⟨done, speaker, -⟩ := frame_tone s pace accepts c
    · exact .inl ⟨if_neg (by rw [faulty]; decide), speaker⟩
    · exact .inr ⟨if_pos done, speaker⟩
  | _ => exact .inl ⟨rfl, rfl⟩

/-- After every completed frame the speaker plays exactly if the frame sounds. -/
theorem playing_of_completed :
    ∀ p ∈ c.completed s pace ops, p.result.console.speaker.playing = p.sounds s pace := by
  induction ops generalizing c with
  | nil =>
    intro p none
    cases none
  | cons op ops ih =>
    intro p listed
    obtain here | later := List.mem_append.mp listed
    · obtain ⟨none, -⟩ | ⟨some, speaker⟩ := completedOf_cases s pace c op
      · rw [none] at here
        cases here
      · rw [some] at here
        rw [List.mem_singleton.mp here]
        exact (congrArg Speaker.playing speaker).trans (playing_follow _ _)
    · exact ih p later

/-! ## Tones -/

/-- How many tones begin in a row of frames: how many of them sound and are the first one, after
what was `before`, or come after one that does not sound. -/
def begins (before : Bool) (tones : List Bool) : Nat :=
  (tones.zip (before :: tones)).countP fun (now, before) => now && !before

/-- A tone begins where it is on and was off before. -/
theorem begins_cons (before now : Bool) (tones : List Bool) :
    begins before (now :: tones) = (now && !before).toNat + begins now tones := by
  unfold begins
  rw [List.zip_cons_cons, List.countP_cons, Nat.add_comm]
  cases now <;> cases before <;> rfl

/-- **The speaker is turned on where a tone begins.** -/
theorem activations_afterAll (s : Setup) (pace : Pace) (c : Console) (ops : List Operation) :
    (c.afterAll s pace ops).speaker.activations = c.speaker.activations +
      begins c.speaker.playing ((c.completed s pace ops).map (Played.sounds s pace)) := by
  -- on the operations; a completed frame leaves a speaker that sounds as the frame does
  induction ops generalizing c with
  | nil => rfl
  | cons op ops ih =>
    have later := ih (c.operate s pace op).console
    rw [afterAll_cons, later, completed]
    obtain ⟨none, speaker⟩ | ⟨some, speaker⟩ := completedOf_cases s pace c op
    · rw [none, speaker]
      rfl
    · have sounds : Played.sounds s pace ⟨c, c.operate s pace op⟩ =
          decide ((c.framed s pace).machine.sound ≠ 0) := rfl
      rw [some, speaker, activations_follow, playing_follow, Option.toList_some,
        List.singleton_append, List.map_cons, begins_cons, sounds, Nat.add_assoc]

/-- A tone that sounds in the first `n` of `k` frames begins once if it does at all. -/
theorem begins_countdown (before : Bool) (n k : Nat) :
    begins before ((List.range k).map fun i => decide (i + 1 ≤ n)) =
      if 0 < n ∧ 0 < k ∧ before = false then 1 else 0 := by
  induction k generalizing before n with
  | zero => simp [begins]
  | succ k ih =>
    have shifted : (List.range (k + 1)).map (fun i => decide (i + 1 ≤ n)) =
        decide (0 < n) :: (List.range k).map fun i => decide (i + 1 ≤ n - 1) := by
      rw [List.range_succ_eq_map, List.map_cons, List.map_map]
      congr 1
      apply List.map_congr_left
      intro i _
      exact decide_eq_decide.mpr (by omega)
    rw [shifted, begins_cons, ih]
    cases before <;> by_cases running : 0 < n <;> simp [running] <;> omega

/-! ## Timers that nobody sets -/

/-- The operation sets a timer or counts the timers down. -/
def Operation.timed : Operation → Bool
  | .setDelay _ | .setSound _ | .tickTimers => true
  | _ => false

/-- No timer is changed but by the countdown of a frame. -/
structure Untimed (s : Setup) (pace : Pace) (c : Console) (ops : List Operation) : Prop where
  outside : ∀ op ∈ ops, op.timed = false
  inside : ∀ timer, ∀ deed ∈ c.deeds s pace ops, deed.instruction.sets timer = false

/-- Where nobody sets the timers, nobody does after the first operation. -/
theorem Untimed.rest (untimed : c.Untimed s pace (op :: ops)) :
    (c.operate s pace op).console.Untimed s pace ops where
  outside := fun op mem => untimed.outside op (List.mem_cons_of_mem _ mem)
  inside := fun timer => (forall_deeds_cons.mp (untimed.inside timer)).2

/-- **Where nobody sets the timers, a completed frame counts them down** and everything else leaves
them. -/
theorem Untimed.first (untimed : c.Untimed s pace (op :: ops)) :
    let next := (c.operate s pace op).console
    (c.completedOf? s pace op = none ∧ ∀ timer, next.machine.timer timer = c.machine.timer timer) ∨
      (c.completedOf? s pace op = some ⟨c, c.operate s pace op⟩ ∧
        (c.framed s pace).machine.sound = c.machine.sound ∧
        ∀ timer, next.machine.timer timer = tick (c.machine.timer timer)) := by
  intro next
  have unset timer : ∀ deed ∈ c.deedsOf s pace op, deed.instruction.sets timer = false :=
    (forall_deeds_cons.mp (untimed.inside timer)).1
  cases op with
  | step =>
    refine .inl ⟨rfl, fun timer => step_timer_of_deed fun deed done => ?_⟩
    exact unset timer deed (Option.mem_toList.mpr done)
  | execute w =>
    refine .inl ⟨rfl, fun timer => execute_timer_of_deed fun deed done => ?_⟩
    exact unset timer deed (Option.mem_toList.mpr done)
  | setKey | markShown => exact .inl ⟨rfl, fun timer => by cases timer <;> rfl⟩
  | setDelay | setSound | tickTimers => cases untimed.outside _ List.mem_cons_self
  | frame accepts =>
    have kept timer : (c.framed s pace).machine.timer timer = c.machine.timer timer :=
      view_framed (Machine.timer · timer) (fun _ => step_timer_of_deed) (unset timer)
    obtain ⟨faulty, -, machine⟩ | ⟨done, -, ticked⟩ := frame_tone s pace accepts c
    · refine .inl ⟨if_neg (by rw [faulty]; decide), fun timer => ?_⟩
      exact (congrArg (Machine.timer · timer) machine).trans (kept timer)
    · refine .inr ⟨if_pos done, kept .sound, fun timer => ?_⟩
      exact (ticked timer).trans (congrArg tick (kept timer))

/-- **Frame by frame the timers are counted down**, and a frame sounds as long as there is something
to count. -/
theorem Untimed.countdown (untimed : c.Untimed s pace ops) {i : Nat} {p : Played}
    (listed : (c.completed s pace ops)[i]? = some p) :
    (∀ timer, (p.result.console.machine.timer timer).toNat =
        (c.machine.timer timer).toNat - (i + 1)) ∧
      p.sounds s pace = decide (i + 1 ≤ c.machine.sound.toNat) := by
  induction ops generalizing c i with
  | nil => cases listed
  | cons op ops ih =>
    rw [completed] at listed
    obtain ⟨none, kept⟩ | ⟨some, runs, ticked⟩ := untimed.first
    · rw [none] at listed
      obtain ⟨left, sounds⟩ := ih untimed.rest listed
      have sound : (c.operate s pace op).console.machine.sound = c.machine.sound := kept .sound
      rw [sound] at sounds
      exact ⟨fun timer => kept timer ▸ left timer, sounds⟩
    · rw [some] at listed
      have sound : (c.operate s pace op).console.machine.sound = tick c.machine.sound :=
        ticked .sound
      cases i with
      | zero =>
        cases listed
        refine ⟨fun timer => ?_, ?_⟩
        · rw [ticked, toNat_tick]
        · rw [Played.sounds, runs]
          exact decide_eq_decide.mpr (by bv_omega)
      | succ i =>
        obtain ⟨left, sounds⟩ := ih untimed.rest listed
        refine ⟨fun timer => ?_, ?_⟩
        · rw [left, ticked, toNat_tick]
          omega
        · rw [sounds, sound, toNat_tick]
          exact decide_eq_decide.mpr (by omega)

/-- **A tone lasts as long as the sound timer says.** After a completed frame the speaker sounds
exactly if the sound timer ran when the frame was about to count it down. From a quiet speaker on,
it is turned on as often as a completed frame with a running timer is the first one or comes after
one whose timer had stopped. Where nobody sets the timers, they are counted down by one with each
completed frame, the speaker sounds after as many of them as the sound timer says at first, and a
quiet speaker is turned on once if there is a tone and a frame, and else not at all. -/
theorem tone_follows_timer (s : Setup) (pace : Pace) (c : Console) (ops : List Operation) :
    let frames := c.completed s pace ops
    let last := c.afterAll s pace ops
    (∀ p ∈ frames, p.result.console.speaker.playing = p.sounds s pace) ∧
      (c.speaker.playing = false → last.speaker.activations =
        c.speaker.activations + begins false (frames.map (Played.sounds s pace))) ∧
      (c.Untimed s pace ops →
        (∀ i p, frames[i]? = some p →
          (∀ timer, (p.result.console.machine.timer timer).toNat =
              (c.machine.timer timer).toNat - (i + 1)) ∧
            p.result.console.speaker.playing = decide (i + 1 ≤ c.machine.sound.toNat)) ∧
          (c.speaker.playing = false → last.speaker.activations = c.speaker.activations +
            if 0 < c.machine.sound.toNat ∧ 0 < frames.length then 1 else 0)) := by
  intro frames last
  have begun := activations_afterAll s pace c ops
  refine ⟨playing_of_completed, fun quiet => quiet ▸ begun, fun untimed => ⟨?_, fun quiet => ?_⟩⟩
  · intro i p listed
    obtain ⟨left, sounds⟩ := untimed.countdown listed
    have playing := playing_of_completed p (List.mem_of_getElem? listed)
    exact ⟨left, playing.trans sounds⟩
  · have tones : frames.map (Played.sounds s pace) =
        (List.range frames.length).map fun i => decide (i + 1 ≤ c.machine.sound.toNat) := by
      apply List.ext_getElem (by simp)
      intro i within _
      rw [List.length_map] at within
      rw [List.getElem_map, List.getElem_map, List.getElem_range]
      exact (untimed.countdown (List.getElem?_eq_getElem within)).2
    have once := begins_countdown false c.machine.sound.toNat frames.length
    rw [← tones] at once
    rw [quiet] at begun
    simpa only [and_true] using begun.trans (congrArg _ once)

/-- A console that sets the sound timer to one again and again. -/
def chime : Console where
  machine := { Machine.empty with
    memory := Machine.empty.memory.write programStart [0xF0, 0x18, 0x12, 0x00]
    v := .fill 1 }
  speaker := .silent {}

/-- A console that does nothing while both timers run. -/
def lingering : Console where
  machine := { Machine.empty with
    memory := Machine.empty.memory.write programStart [0x12, 0x00]
    delay := 5
    sound := 2 }
  speaker := .silent {}

/-- One instruction a frame. -/
def slowest : Pace := ⟨1, by decide⟩

/-- Three frames; a key goes down in between, and the screen does not take a picture of the last. -/
def threeFrames : List Operation :=
  [.frame true, .frame true, .setKey 3 true, .frame false]

theorem untimed_lingering : lingering.Untimed {} slowest threeFrames where
  outside := by decide
  inside := by
    intro timer
    cases timer <;> decide +kernel

theorem tone_follows_timer_chime :
    (∃ p ∈ chime.completed {} slowest threeFrames,
        p.sounds {} slowest = true ∧ p.result.console.speaker.playing = true) ∧
      (chime.completed {} slowest threeFrames).map (Played.sounds {} slowest) =
        [true, false, true] ∧
      chime.speaker.playing = false ∧
      (chime.afterAll {} slowest threeFrames).speaker.activations =
        chime.speaker.activations + begins false [true, false, true] ∧
      lingering.Untimed {} slowest threeFrames ∧
      (∃ p, (lingering.completed {} slowest threeFrames)[1]? = some p ∧
        p.result.console.machine.delay.toNat = 5 - 2 ∧
        p.result.console.machine.sound.toNat = 2 - 2 ∧
        p.result.console.speaker.playing = true) ∧
      lingering.speaker.playing = false ∧
      (lingering.afterAll {} slowest threeFrames).speaker.activations =
        lingering.speaker.activations + 1 := by
  obtain ⟨playing, begun, -⟩ := tone_follows_timer {} slowest chime threeFrames
  obtain ⟨-, -, untimed⟩ := tone_follows_timer {} slowest lingering threeFrames
  obtain ⟨countdown, once⟩ := untimed untimed_lingering
  have tones : (chime.completed {} slowest threeFrames).map (Played.sounds {} slowest) =
      [true, false, true] := by decide +kernel
  have length : 0 < (lingering.completed {} slowest threeFrames).length := by decide +kernel
  obtain ⟨p, first⟩ : ∃ p, (chime.completed {} slowest threeFrames)[0]? = some p :=
    Option.isSome_iff_exists.mp (by decide +kernel)
  obtain ⟨q, second⟩ : ∃ q, (lingering.completed {} slowest threeFrames)[1]? = some q :=
    Option.isSome_iff_exists.mp (by decide +kernel)
  have sounds : p.sounds {} slowest = true := by
    have mapped := congrArg (·[0]?) tones
    simp only [List.getElem?_map, first] at mapped
    exact Option.some.inj mapped
  obtain ⟨left, lasts⟩ := countdown 1 q second
  refine ⟨⟨p, List.mem_of_getElem? first, sounds, ?_⟩, tones, rfl, ?_, untimed_lingering,
    ⟨q, second, left .delay, left .sound, lasts⟩, rfl, ?_⟩
  · rw [playing p (List.mem_of_getElem? first), sounds]
  · rw [begun rfl, tones]
  · exact (once rfl).trans (congrArg _ (if_pos ⟨by decide, length⟩))

end Console

end Cosmac
