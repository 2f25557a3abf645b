import Cosmac.Machine.Program
import Cosmac.Operation
import Cosmac.Proofs.FrameSteps
import Mathlib.Algebra.Ring.Nat

/-!
# What frames count

A frame that is not ended by a fault carries out a known number of instructions, counts both timers
down once after them and offers a picture exactly if one of the instructions touched the display
(`FrameResult.Regular`). This holds of frames that start with the mark down, and such a frame leaves
the mark down. So it holds of all frames that follow one another, with input of keys and timers in
between, and the counts of the whole are the sums over its frames.
-/

namespace Cosmac

namespace Machine

variable {s : Setup} {m next : Machine} {i : Instruction} {n j : Nat}

/-- How many instructions a frame of at most `n` carries out if none of them meets a fault. Where it
waits for the display, it ends with the first instruction that touches it. -/
def frameLength (s : Setup) (m : Machine) (n : Nat) : Nat :=
  if s.dialect.displayWait then
    match (List.range n).find? fun i => (m.after s i).marks s with
    | some i => i + 1
    | none => n
  else n

/-- The display is touched within one step more if it was before or that step touches it. -/
theorem marksWithin_succ (s : Setup) (m : Machine) (n : Nat) :
    m.marksWithin s (n + 1) = (m.marksWithin s n || (m.after s n).marks s) := by
  simp [marksWithin, List.range_succ]

/-- The display is not touched within some steps exactly if none of them touches it. -/
theorem marksWithin_eq_false_iff :
    m.marksWithin s n = false ↔ ∀ i < n, (m.after s i).marks s = false := by
  simp [marksWithin]

/-- A frame that starts with the mark down and meets no fault is as long as its length says. -/
theorem FrameEnd.length (clean : m.dirty = false) (last : m.FrameEnd s n j)
    (fine : ((m.after s j).step s).fault? = none) : m.frameLength s n = j + 1 := by
  -- a step that does not bring the mark up is the last one only if it is the `n`-th
  have all (patient : s.dialect.displayWait = true → (m.after s (j + 1)).dirty = false) :
      n = j + 1 := by
    obtain short | rfl := Nat.lt_or_eq_of_le last.lt
    · obtain fault | ⟨wait, dirty⟩ := last.ends short
      · exact absurd fine fault
      · rw [patient wait] at dirty
        cases dirty
    · rfl
  unfold frameLength
  split
  case isFalse patient => exact all fun wait => absurd wait patient
  case isTrue wait =>
    have before : ∀ i < j, (m.after s i).marks s = false := last.unmarked wait
    cases marked : (m.after s j).marks s with
    | true =>
      have first : (List.range n).find? (fun i => (m.after s i).marks s) = some j := by
        rw [List.find?_range_eq_some]
        refine ⟨marked, List.mem_range.mpr last.lt, fun i earlier => ?_⟩
        rw [before i earlier]
        rfl
      rw [first]
    | false =>
      have unmarked : m.marksWithin s (j + 1) = false := by
        rw [marksWithin_succ, marked, marksWithin_eq_false_iff.mpr before]
        rfl
      have length : n = j + 1 := all fun _ => by rw [after_dirty, clean, unmarked]; rfl
      have never : (List.range n).find? (fun i => (m.after s i).marks s) = none := by
        rw [List.find?_range_eq_none]
        intro i within
        rw [marksWithin_eq_false_iff.mp unmarked i (length ▸ within)]
        rfl
      rw [never]
      exact length

/-- The work of an instruction does not count it; the step around it does. -/
theorem perform_instructions (performed : m.perform s i = .ok next) :
    next.counters.instructions = m.counters.instructions := by
  cases i <;> simp only [perform] at performed <;> (try split at performed) <;> cases performed <;>
    rfl

/-- Each step that succeeds counts one instruction. -/
theorem after_instructions (done : m.Succeeds s n) :
    (m.after s n).counters.instructions = m.counters.instructions + n := by
  induction n with
  | zero => rfl
  | succ n ih =>
    obtain ⟨i, next, -, performed, same⟩ := step_of_success (done n (Nat.lt_succ_self n))
    have earlier := ih fun k before => done k (Nat.lt_succ_of_lt before)
    have kept := perform_instructions performed
    rw [after, same]
    calc next.count.counters.instructions
        = next.counters.instructions + 1 := rfl
      _ = (m.after s n).counters.instructions + 1 := by rw [kept]; rfl
      _ = m.counters.instructions + (n + 1) := by rw [earlier, Nat.add_assoc]

/-- A tick takes one from a timer that runs. -/
theorem toNat_tick (timer : Byte) : (tick timer).toNat = timer.toNat - 1 := by
  unfold tick
  split
  case isTrue stopped =>
    rw [stopped]
    rfl
  case isFalse runs => bv_omega

end Machine

namespace Console

open Machine

variable {s : Setup} {pace : Pace} {c : Console}

/-! ## One frame -/

/-- How many instructions the next frame carries out if none of them meets a fault. -/
def frameLength (s : Setup) (pace : Pace) (c : Console) : Nat :=
  c.machine.frameLength s pace.instructions

/-- One of the instructions of the next frame touches the display. -/
def frameMarks (s : Setup) (pace : Pace) (c : Console) : Bool :=
  c.machine.marksWithin s (c.frameLength s pace)

/-- What a frame makes of a console if no fault ends it and the screen takes its picture. -/
structure FrameResult.Regular (s : Setup) (pace : Pace) (c : Console) (r : FrameResult) :
    Prop where
  succeeds : c.machine.Succeeds s (c.frameLength s pace)
  machine : r.console.machine =
    (c.machine.after s (c.frameLength s pace)).tickTimers.markShown
  delay : r.console.machine.delay.toNat =
    (c.machine.after s (c.frameLength s pace)).delay.toNat - 1
  sound : r.console.machine.sound.toNat =
    (c.machine.after s (c.frameLength s pace)).sound.toNat - 1
  instructions : r.console.machine.counters.instructions =
    c.machine.counters.instructions + c.frameLength s pace
  clean : r.console.machine.dirty = false
  frames : r.console.frames = c.frames + 1
  redraws : r.console.redraws = c.redraws + (c.frameMarks s pace).toNat
  picture : r.picture? = if c.frameMarks s pace then
    some (c.machine.after s (c.frameLength s pace)).display else none
  ending : r.ending = .finished (c.frameMarks s pace)

/-- Where there is nothing to show, showing changes nothing. -/
theorem markShown_of_clean {m : Machine} (clean : m.dirty = false) : m.markShown = m := by
  unfold markShown
  rw [← clean]

/-- The frame that starts with the mark down and meets no fault, in one equation. -/
theorem frame_of_fine (clean : c.machine.dirty = false)
    (fine : ∀ f, (c.frame s pace true).ending ≠ .fault f) :
    let last := c.machine.after s (c.frameLength s pace)
    let marks := c.frameMarks s pace
    c.machine.Succeeds s (c.frameLength s pace) ∧
      c.frame s pace true =
        ⟨{ c.turnOver last with
            machine := last.tickTimers.markShown
            redraws := c.redraws + marks.toNat },
          c.frameEffects (c.framed s pace), if marks then some last.display else none,
          .finished marks⟩ := by
  intro last marks
  obtain ⟨j, ends, ran, fault⟩ := Running.exists_frameEnd s pace.positive ⟨c.machine, [], none⟩
  -- first the loop, which went on to its regular end, then what the frame made of it
  have good : (c.framed s pace).fault? = none := by
    obtain ⟨f, -, same⟩ | ⟨good, -⟩ | ⟨good, -⟩ | ⟨good, -⟩ := frame_cases s pace true c
    · exact absurd (congrArg FrameResult.ending same) (fine f)
    all_goals exact good
  have done : ((c.machine.after s j).step s).fault? = none := fault.symm.trans good
  have length : c.frameLength s pace = j + 1 := ends.length clean done
  have succeeds : c.machine.Succeeds s (c.frameLength s pace) := by
    intro i before
    rw [length] at before
    obtain earlier | rfl := Nat.lt_succ_iff_lt_or_eq.mp before
    · exact (ends.goesOn i earlier).1
    · exact done
  have stepped : (c.framed s pace).machine = last := by
    unfold last
    rw [length]
    exact ran
  have dirty : last.dirty = marks := by
    unfold last
    rw [after_dirty, clean, Bool.false_or]
    rfl
  refine ⟨succeeds, ?_⟩
  obtain ⟨f, bad, -⟩ | ⟨-, quiet, same⟩ | ⟨-, -, refused, -⟩ | ⟨-, quiet, -, same⟩ :=
    frame_cases s pace true c
  · rw [good] at bad
    cases bad
  · rw [stepped] at quiet
    have unshown : last.tickTimers.markShown = last.tickTimers := markShown_of_clean quiet
    rw [same, stepped, unshown, ← dirty, quiet]
    rfl
  · cases refused
  · rw [stepped] at quiet
    rw [same, stepped, ← dirty, quiet]
    rfl

/-- **A frame that starts with the mark down and meets no fault is regular.** -/
theorem regular_of_frame (clean : c.machine.dirty = false)
    (fine : ∀ f, (c.frame s pace true).ending ≠ .fault f) :
    (c.frame s pace true).Regular s pace c := by
  obtain ⟨succeeds, same⟩ := frame_of_fine clean fine
  rw [same]
  exact
    { succeeds
      machine := rfl
      delay := toNat_tick _
      sound := toNat_tick _
      instructions := after_instructions succeeds
      clean := rfl
      frames := rfl
      redraws := rfl
      picture := rfl
      ending := rfl }

/-! ## Frames with input in between -/

/-- Input from outside, of a key or a timer. -/
def Operation.isInput : Operation → Bool
  | .setKey _ _ | .setDelay _ | .setSound _ | .tickTimers => true
  | _ => false

/-- A frame that was run: the console when it began and what came of it. -/
structure Played where
  start : Console
  result : FrameResult

/-- Runs one frame after each piece of input, in front of a screen that takes every picture. -/
def play (s : Setup) (pace : Pace) (c : Console) : List (List Operation) → List Played
  | [] => []
  | input :: inputs =>
    let start := c.afterAll s pace input
    let result := start.frame s pace true
    ⟨start, result⟩ :: result.console.play s pace inputs

/-- The same as operations one after another. -/
def schedule (inputs : List (List Operation)) : List Operation :=
  inputs.flatMap (· ++ [.frame true])

theorem afterAll_schedule_cons (s : Setup) (pace : Pace) (c : Console) (input : List Operation)
    (inputs : List (List Operation)) :
    c.afterAll s pace (schedule (input :: inputs)) =
      ((c.afterAll s pace input).frame s pace true).console.afterAll s pace (schedule inputs) := by
  simp [afterAll, schedule, operate]

/-- The console with other keys and timers. -/
def withInput (c : Console) (keys : Table 4 Bool) (delay sound : Byte) : Console :=
  { c with machine := { c.machine with keys, delay, sound } }

/-- An operation that is input changes nothing but keys and timers. -/
theorem operate_input (s : Setup) (pace : Pace) (c : Console) {op : Operation}
    (isInput : op.isInput = true) :
    ∃ keys delay sound, (c.operate s pace op).console = c.withInput keys delay sound := by
  cases op with
  | setKey | setDelay | setSound | tickTimers => exact ⟨_, _, _, rfl⟩
  | _ => cases isInput

/-- **Input changes the keys and the timers** and nothing else. -/
theorem afterAll_input (s : Setup) (pace : Pace) (c : Console) {input : List Operation}
    (outside : ∀ op ∈ input, op.isInput = true) :
    ∃ keys delay sound, c.afterAll s pace input = c.withInput keys delay sound := by
  induction input generalizing c with
  | nil => exact ⟨c.machine.keys, c.machine.delay, c.machine.sound, rfl⟩
  | cons op input ih =>
    obtain ⟨keys, delay, sound, first⟩ :=
      operate_input s pace c (outside op List.mem_cons_self)
    obtain ⟨keys', delay', sound', rest⟩ :=
      ih (c.operate s pace op).console fun op mem => outside op (List.mem_cons_of_mem _ mem)
    have again : (c.operate s pace op).console.withInput keys' delay' sound' =
        c.withInput keys' delay' sound' := by
      rw [first]
      rfl
    exact ⟨keys', delay', sound', rest.trans again⟩

/-- Frames are run with the mark down at first, with input of keys and timers only, and without a
fault. -/
structure Undisturbed (s : Setup) (pace : Pace) (c : Console) (inputs : List (List Operation)) :
    Prop where
  clean : c.machine.dirty = false
  outside : ∀ input ∈ inputs, ∀ op ∈ input, op.isInput = true
  complete : ∀ p ∈ c.play s pace inputs, ∀ f, p.result.ending ≠ .fault f

variable {input : List Operation} {inputs : List (List Operation)}

/-- **The first of undisturbed frames is regular, and the others are undisturbed.** -/
theorem Undisturbed.first (runs : c.Undisturbed s pace (input :: inputs)) :
    let start := c.afterAll s pace input
    let result := start.frame s pace true
    result.Regular s pace start ∧ result.console.Undisturbed s pace inputs := by
  intro start result
  obtain ⟨keys, delay, sound, entered⟩ := afterAll_input s pace c
    (runs.outside input List.mem_cons_self)
  have clean : start.machine.dirty = false := by
    unfold start
    rw [entered]
    exact runs.clean
  have regular : result.Regular s pace start :=
    regular_of_frame clean (runs.complete ⟨start, result⟩ List.mem_cons_self)
  exact ⟨regular,
    { clean := regular.clean
      outside := fun input mem => runs.outside input (List.mem_cons_of_mem _ mem)
      complete := fun p mem => runs.complete p (List.mem_cons_of_mem _ mem) }⟩

/-- Every frame of an undisturbed run is regular. -/
theorem Undisturbed.regular (runs : c.Undisturbed s pace inputs) :
    ∀ p ∈ c.play s pace inputs, p.result.Regular s pace p.start := by
  induction inputs generalizing c with
  | nil =>
    intro p mem
    cases mem
  | cons input inputs ih =>
    obtain ⟨regular, others⟩ := runs.first
    intro p mem
    obtain rfl | mem := List.mem_cons.mp mem
    · exact regular
    · exact ih others p mem

/-- An undisturbed run leaves nothing to show. -/
theorem Undisturbed.clean_last (runs : c.Undisturbed s pace inputs) :
    (c.afterAll s pace (schedule inputs)).machine.dirty = false := by
  induction inputs generalizing c with
  | nil => exact runs.clean
  | cons input inputs ih =>
    rw [afterAll_schedule_cons]
    exact ih runs.first.2

/-- **What every regular frame adds to a count is added up.** Input must not be counted. -/
theorem Undisturbed.count_last (count added : Console → Nat)
    (kept : ∀ c keys delay sound, count (withInput c keys delay sound) = count c)
    (adds : ∀ c (r : FrameResult), r.Regular s pace c → count r.console = count c + added c)
    (runs : c.Undisturbed s pace inputs) :
    count (c.afterAll s pace (schedule inputs)) =
      count c + ((c.play s pace inputs).map fun p => added p.start).sum := by
  -- by induction on the frames, from every console that they leave undisturbed
  induction inputs generalizing c with
  | nil => rfl
  | cons input inputs ih =>
    obtain ⟨regular, others⟩ := runs.first
    obtain ⟨keys, delay, sound, entered⟩ := afterAll_input s pace c
      (runs.outside input List.mem_cons_self)
    have counted : count (c.afterAll s pace input) = count c := by rw [entered, kept]
    rw [afterAll_schedule_cons, ih others, adds _ _ regular, counted, Nat.add_assoc]
    rfl

/-- There is one frame for each stretch of input. -/
theorem length_play (s : Setup) (pace : Pace) (c : Console) (inputs : List (List Operation)) :
    (c.play s pace inputs).length = inputs.length := by
  induction inputs generalizing c with
  | nil => rfl
  | cons input inputs ih => simp [play, ih]

/-- Summing ones and zeros counts the ones. -/
theorem sum_toNat {α : Type} (p : α → Bool) (l : List α) :
    (l.map fun a => (p a).toNat).sum = l.countP p := by
  induction l with
  | nil => rfl
  | cons a l ih =>
    rw [List.map_cons, List.sum_cons, ih, List.countP_cons, Nat.add_comm]
    cases p a <;> rfl

/-- The pictures that frames offered, in order. -/
def pictures (frames : List Played) : List Display :=
  frames.filterMap fun p => p.result.picture?

theorem pictures_cons (p : Played) (frames : List Played) :
    pictures (p :: frames) = p.result.picture?.toList ++ pictures frames := by
  unfold pictures
  rw [List.filterMap_cons]
  cases p.result.picture? <;> rfl

/-! ## Frames without input -/

theorem play_replicate_succ (s : Setup) (pace : Pace) (c : Console) (k : Nat) :
    c.play s pace (List.replicate (k + 1) []) = ⟨c, c.frame s pace true⟩ ::
      (c.frame s pace true).console.play s pace (List.replicate k []) := rfl

theorem afterAll_replicate_succ (s : Setup) (pace : Pace) (c : Console) (k : Nat) :
    c.afterAll s pace (schedule (List.replicate (k + 1) [])) =
      (c.frame s pace true).console.afterAll s pace (schedule (List.replicate k [])) :=
  afterAll_schedule_cons s pace c [] (List.replicate k [])

/-- **A session runs frames without input in between**, and what meets no fault does not keep it
from going on. -/
theorem Session.frames_of_fine {r : Session} (fine : r.fault? = none) (k l : Nat)
    (complete : ∀ p ∈ r.console.play s pace (List.replicate k []), ∀ f,
      p.result.ending ≠ .fault f) :
    r.frames s pace (k + l) = Session.frames s pace
      { console := r.console.afterAll s pace (schedule (List.replicate k []))
        done := ((r.console.play s pace (List.replicate k [])).map
          fun p => p.result.effects).reverse ++ r.done
        pictures :=
          (Console.pictures (r.console.play s pace (List.replicate k []))).reverse ++ r.pictures }
      l := by
  induction k generalizing r with
  | zero =>
    rw [Nat.zero_add]
    cases r
    cases fine
    rfl
  | succ k ih =>
    rw [play_replicate_succ] at complete
    obtain ⟨first, others⟩ := List.forall_mem_cons.mp complete
    have going : (r.frame s pace).fault? = none := by
      unfold Session.frame
      cases ending : (r.console.frame s pace true).ending with
      | fault f => exact absurd ending (first f)
      | _ => simp only [ending]
    have next : r.frames s pace (k + l + 1) = (r.frame s pace).frames s pace (k + l) := by
      rw [Session.frames, if_neg (by rw [going]; decide)]
    have shown : (r.frame s pace).pictures =
        (r.console.frame s pace true).picture?.toList.reverse ++ r.pictures := by
      cases offered : (r.console.frame s pace true).picture? <;> simp [Session.frame, offered]
    rw [Nat.add_right_comm, next, ih going others, play_replicate_succ, afterAll_replicate_succ,
      List.map_cons, List.reverse_cons, List.append_assoc, pictures_cons, List.reverse_append,
      List.append_assoc, shown]
    rfl

/-- A session of an undisturbed run has the pictures of its frames, the last one first. -/
theorem Undisturbed.session {n : Nat} {r : Session} (fine : r.fault? = none)
    (runs : r.console.Undisturbed s pace (List.replicate n [])) :
    (r.frames s pace n).fault? = none ∧
      (r.frames s pace n).console =
        r.console.afterAll s pace (schedule (List.replicate n [])) ∧
      (r.frames s pace n).pictures =
        (pictures (r.console.play s pace (List.replicate n []))).reverse ++ r.pictures := by
  have same := Session.frames_of_fine fine n 0 runs.complete
  rw [Nat.add_zero] at same
  rw [same]
  exact ⟨rfl, rfl, rfl⟩

/-- A session without a fault reports every frame. -/
theorem run_of_fine {k : Nat}
    (fine : (Session.frames s pace { console := c } k).fault? = none) :
    c.run s pace k =
      let r := Session.frames s pace { console := c } k
      { r with done := [.notice (.ran k r.pictures.length)] :: r.done } := by
  unfold run
  rw [Int.toNat_natCast, if_neg (by rw [fine]; decide)]

/-- **What undisturbed frames count.** Every one of them is regular: it carries out as many
instructions as its length says, then counts the timers down once, and offers a picture exactly if
one of its instructions touched the display. The mark is down after the last one. As many frames are
counted as there were, and as many redraws, pictures and frames that say so as there were frames
that touched the display. Without input in between a session comes to the same. -/
theorem frames_counted (s : Setup) (pace : Pace) (c : Console) (inputs : List (List Operation))
    (runs : c.Undisturbed s pace inputs) :
    let frames := c.play s pace inputs
    let last := c.afterAll s pace (schedule inputs)
    let marked := frames.countP fun p => p.start.frameMarks s pace
    (∀ p ∈ frames, p.result.Regular s pace p.start) ∧
      last.machine.dirty = false ∧
      last.frames = c.frames + inputs.length ∧
      last.machine.counters.instructions = c.machine.counters.instructions +
        (frames.map fun p => p.start.frameLength s pace).sum ∧
      (s.dialect.displayWait = false → last.machine.counters.instructions =
        c.machine.counters.instructions + inputs.length * pace.instructions) ∧
      last.redraws = c.redraws + marked ∧
      (pictures frames).length = marked ∧
      (frames.countP fun p => p.result.ending = .finished true) = marked ∧
      ∀ k : Nat, inputs = List.replicate k [] →
        let run := c.run s pace k
        run.fault? = none ∧ run.console = last ∧ run.pictures = (pictures frames).reverse ∧
          run.pictures.length = marked ∧ run.done.head? = some [.notice (.ran k marked)] := by
  intro frames last marked
  have regular : ∀ p ∈ frames, p.result.Regular s pace p.start := runs.regular
  have counted := runs.count_last Console.frames (fun _ => 1) (fun _ _ _ _ => rfl)
    fun _ _ regular => regular.frames
  have redraws := runs.count_last Console.redraws (fun c => (c.frameMarks s pace).toNat)
    (fun _ _ _ _ => rfl) fun _ _ regular => regular.redraws
  have instructions := runs.count_last (fun c => c.machine.counters.instructions)
    (frameLength s pace) (fun _ _ _ _ => rfl) fun _ _ regular => regular.instructions
  have offered : (pictures frames).length = marked := by
    unfold pictures
    rw [List.length_filterMap_eq_countP]
    apply List.countP_congr
    intro p mem
    rw [(regular p mem).picture]
    cases p.start.frameMarks s pace <;> simp
  have endings : (frames.countP fun p => p.result.ending = .finished true) = marked := by
    apply List.countP_congr
    intro p mem
    rw [(regular p mem).ending]
    cases p.start.frameMarks s pace <;> decide
  refine ⟨regular, runs.clean_last, ?_, instructions, ?_, ?_, offered, endings, ?_⟩
  · rw [counted, List.map_const', List.sum_replicate_nat, length_play, Nat.mul_one]
  · intro patient
    have whole : frameLength s pace = fun _ => pace.instructions := by
      funext c
      exact if_neg (by simp [patient])
    rw [instructions, whole, List.map_const', List.sum_replicate_nat, length_play]
  · rw [redraws, sum_toNat]
  · intro k same run
    subst same
    obtain ⟨fine, console, shown⟩ := Undisturbed.session (r := { console := c }) rfl runs
    rw [List.append_nil] at shown
    have run_eq : run = _ := run_of_fine fine
    have length : (Session.frames s pace { console := c } k).pictures.length = marked := by
      rw [shown, List.length_reverse]
      exact offered
    rw [run_eq]
    refine ⟨fine, console, shown, length, ?_⟩
    rw [← length]
    rfl

/-- A console that clears the display and then waits. -/
def clearOnce : Console where
  machine := { Machine.empty with
    memory := Machine.empty.memory.write programStart [0x00, 0xE0, 0x12, 0x02] }
  speaker := .silent {}

/-- A key goes down before the first frame, and the delay timer is set before the second. -/
def keyThenTimer : List (List Operation) :=
  [[.setKey 3 true], [.setDelay 5]]

theorem undisturbed_clearOnce : clearOnce.Undisturbed .waiting ⟨2, by decide⟩ keyThenTimer := by
  have endings : (clearOnce.play .waiting ⟨2, by decide⟩ keyThenTimer).map
      (fun p => p.result.ending) = [.finished true, .finished false] := by decide +kernel
  refine { clean := rfl, outside := by decide, complete := ?_ }
  intro p mem f faulty
  have listed : p.result.ending ∈ [Ending.finished true, .finished false] :=
    endings ▸ List.mem_map_of_mem mem
  rw [faulty] at listed
  simp at listed

/-- The console after two frames. -/
def clearedOnce : Console :=
  clearOnce.afterAll .waiting ⟨2, by decide⟩ (schedule keyThenTimer)

theorem frames_counted_clearOnce :
    clearOnce.Undisturbed .waiting ⟨2, by decide⟩ keyThenTimer ∧
      (clearOnce.play .waiting ⟨2, by decide⟩ keyThenTimer).map
        (fun p => p.start.frameLength .waiting ⟨2, by decide⟩) = [1, 2] ∧
      clearedOnce.machine.counters.instructions =
        clearOnce.machine.counters.instructions + [1, 2].sum ∧
      clearedOnce.frames = clearOnce.frames + 2 ∧
      clearedOnce.redraws = clearOnce.redraws + 1 ∧
      clearedOnce.machine.delay = 4 ∧ clearedOnce.machine.dirty = false := by
  have lengths : (clearOnce.play .waiting ⟨2, by decide⟩ keyThenTimer).map
      (fun p => p.start.frameLength .waiting ⟨2, by decide⟩) = [1, 2] := by decide +kernel
  have marked : (clearOnce.play .waiting ⟨2, by decide⟩ keyThenTimer).countP
      (fun p => p.start.frameMarks .waiting ⟨2, by decide⟩) = 1 := by decide +kernel
  have delay : clearedOnce.machine.delay = 4 := by decide +kernel
  obtain ⟨-, clean, frames, instructions, -, redraws, -⟩ :=
    frames_counted .waiting ⟨2, by decide⟩ clearOnce keyThenTimer undisturbed_clearOnce
  have last : clearOnce.afterAll .waiting ⟨2, by decide⟩ (schedule keyThenTimer) =
      clearedOnce := rfl
  rw [last] at clean frames
  rw [last, lengths] at instructions
  rw [last, marked] at redraws
  exact ⟨undisturbed_clearOnce, lengths, instructions, frames, redraws, delay, clean⟩

end Console

end Cosmac
