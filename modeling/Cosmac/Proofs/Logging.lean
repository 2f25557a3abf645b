import Cosmac.Proofs.FailedFrames
import Cosmac.Proofs.JumpMark
import Cosmac.Proofs.Recognition

/-!
# What is logged

Of what a machine reports, two things matter enough for a log that is not kept in detail: the first
jump to its own address and the fault that stops it. Everything else that happens in steps and
frames is detail. `Logged` says what steps, frames and operations log, by their deeds and the fault
that they meet, and how the two marks of the machine keep account of it: one that a jump has been
reported, one that the machine has stopped. It holds of a step, and what follows one another is put
together by `Logged.append`.

Main statement: whole runs log at most one line about a jump and one about a fault, at their places,
and a stopped machine logs nothing more (`log_discipline`).
-/

namespace Cosmac

/-- The log of two stretches of effects is one log after the other. -/
theorem logLines_append (lowest : Log.Level) (first last : List Effect) :
    logLines lowest (first ++ last) = logLines lowest first ++ logLines lowest last := by
  simp only [logLines, List.filterMap_append, List.filter_append, List.map_append]

namespace Machine

/-- The line about a jump to its own address. -/
def jumpLine (site : Addr) : String :=
  Log.Entry.line ⟨.warning, .machine,
    "Infinite jump detected at PC=" ++ site.text ++ " (further warnings suppressed)"⟩

/-- The line about a fault, with what the user is told of it. -/
def faultLine (f : Fault) : String :=
  Log.Entry.line ⟨.error, .machine, "ERROR: " ++ f.message⟩

/-- The deed of a step is a jump to its own address. -/
def Deed.spins (deed : Deed) : Bool :=
  decide (deed.instruction = .jump deed.machine.pc)

/-- The lines about jumps of a machine that does some deeds, and has `warned` before or not: one
about the first jump of a deed to its own address. -/
def jumpLines (warned : Bool) (deeds : List Deed) : List String :=
  if warned then [] else (deeds.find? Deed.spins).toList.map fun deed => jumpLine deed.machine.pc

/-- The lines about faults of a machine that meets a fault or none, and had `crashed` before or
not. -/
def faultLines (crashed : Bool) (fault? : Option Fault) : List String :=
  if crashed then [] else fault?.toList.map faultLine

/-- Each deed finds the mark up exactly if it was up at first or a deed before was a jump to its own
address. -/
def Marked (warned : Bool) : List Deed → Prop
  | [] => True
  | deed :: deeds => deed.machine.warned = warned ∧ Marked (warned || deed.spins) deeds

variable {s : Setup} {m next : Machine} {i : Instruction}

/-- A second stretch of deeds starts with the mark that the first one left. -/
theorem jumpLines_append (warned : Bool) (first last : List Deed) :
    jumpLines warned (first ++ last) =
      jumpLines warned first ++ jumpLines (warned || first.any Deed.spins) last := by
  cases warned with
  | true => rfl
  | false =>
    simp only [jumpLines, Bool.false_or, Bool.false_eq_true, if_false, List.find?_append]
    cases spun : first.find? Deed.spins with
    | some deed =>
      have some : first.any Deed.spins = true :=
        List.any_eq_true.mpr ⟨deed, List.mem_of_find?_eq_some spun, List.find?_some spun⟩
      rw [some, if_pos rfl, List.append_nil]
      rfl
    | none =>
      have none : first.any Deed.spins = false := by
        simpa using List.find?_eq_none.mp spun
      rw [none, if_neg Bool.false_ne_true]
      rfl

/-- In two stretches of deeds the mark is found right if it is so in each. -/
theorem marked_append {warned : Bool} {first last : List Deed} :
    Marked warned (first ++ last) ↔
      Marked warned first ∧ Marked (warned || first.any Deed.spins) last := by
  induction first generalizing warned with
  | nil => simp [Marked]
  | cons deed first ih => simp [Marked, ih, and_assoc, Bool.or_assoc]

/-! ## What a step logs -/

/-- Which instruction is the first jump to the address where it stands. -/
theorem selfJump?_advance (m : Machine) (i : Instruction) :
    m.advance.selfJump? i = if i = .jump m.pc ∧ m.warned = false then some m.pc else none := by
  have same : m.advance.warned = m.warned := rfl
  cases i with
  | jump nnn =>
    simp only [selfJump?, here_advance, same]
    by_cases spins : nnn = m.pc
    · subst spins
      simp
    · simp [spins]
  | _ => simp [selfJump?]

/-- The mark is set by a jump to its own address and never cleared. -/
theorem perform_warned (performed : m.perform s i = .ok next) :
    next.warned = (m.warned || decide (i = .jump m.here)) := by
  cases i with
  | jump nnn =>
    cases performed
    simp [beq_eq_decide]
  | _ =>
    simp only [perform] at performed
    (try split at performed) <;> cases performed <;> simp [setReg, drawSprite]

/-- The trace of a step stays below the level of a warning. -/
theorem logLines_trace (s : Setup) (m : Machine) :
    logLines .warning ((m.trace s).map Effect.ofMachine) = [] := by
  unfold trace
  split <;> rfl

/-- A report of a machine is logged if it matters enough. -/
theorem logLines_ofMachine (lowest : Log.Level) (n : Notice) :
    logLines lowest [.ofMachine n] = if n.entry.reaches lowest then [n.entry.line] else [] := by
  have entries : [Effect.ofMachine n].filterMap Effect.entry? = [n.entry] := rfl
  rw [logLines, entries, List.filter_singleton]
  cases n.entry.reaches lowest <;> rfl

theorem logLines_selfJump (site : Addr) :
    logLines .warning [.ofMachine (.selfJump site)] = [jumpLine site] :=
  logLines_ofMachine .warning (.selfJump site)

/-- A jump to its own address is reported if none has been before. -/
theorem logLines_selfJump? (m : Machine) (i : Instruction) :
    logLines .warning (((m.advance.selfJump? i).toList.map .selfJump).map Effect.ofMachine) =
      jumpLines m.warned [⟨m, i⟩] := by
  rw [selfJump?_advance]
  cases warned : m.warned <;> by_cases jumps : i = .jump m.pc <;>
    simp [jumpLines, jumps, logLines_selfJump, Deed.spins] <;> rfl

theorem logLines_fault (f : Fault) : logLines .warning [.ofMachine (.fault f)] = [faultLine f] :=
  logLines_ofMachine .warning (.fault f)

/-- Between two machines some deeds were done and a fault was met or none, and these lines were
logged: at most one about a jump and one about the fault. -/
structure Logged (before after : Machine) (deeds : List Deed) (fault? : Option Fault)
    (lines : List String) : Prop where
  lines_eq : lines = jumpLines before.warned deeds ++ faultLines before.crashed fault?
  marked : Marked before.warned deeds
  /-- The mark about jumps is up from the first jump of a deed to its own address on. -/
  warned : after.warned = (before.warned || deeds.any Deed.spins)
  /-- The machine has stopped exactly if it had before or met a fault. -/
  crashed : after.crashed = (before.crashed || fault?.isSome)

/-- What changes neither mark and logs nothing. -/
theorem Logged.quiet {after : Machine} (warned : after.warned = m.warned)
    (crashed : after.crashed = m.crashed) : Logged m after [] none [] where
  lines_eq := by simp [jumpLines, faultLines]
  marked := trivial
  warned := by simpa using warned
  crashed := by simpa using crashed

/-- **What is logged one after another**, if a machine that has met a fault does nothing more. -/
theorem Logged.append {middle last : Machine} {deeds deeds' : List Deed}
    {fault? fault?' : Option Fault} {lines lines' : List String}
    (first : Logged m middle deeds fault? lines)
    (second : Logged middle last deeds' fault?' lines') (idle : fault?.isSome → deeds' = []) :
    Logged m last (deeds ++ deeds') (fault?.or fault?') (lines ++ lines') where
  lines_eq := by
    rw [first.lines_eq, second.lines_eq, first.warned, first.crashed, jumpLines_append]
    cases met : fault? with
    | none => simp [faultLines]
    | some f =>
      rw [idle (by rw [met]; rfl)]
      simp [jumpLines, faultLines]
  marked := marked_append.mpr ⟨first.marked, first.warned ▸ second.marked⟩
  warned := by rw [second.warned, first.warned, List.any_append, Bool.or_assoc]
  crashed := by rw [second.crashed, first.crashed, Option.isSome_or, Bool.or_assoc]

/-- **What a step logs**: a line about its deed if it is the first jump to its own address, and a
line about its fault unless the machine had stopped before. -/
theorem logged_step (s : Setup) (m : Machine) :
    Logged m (m.step s).machine (m.deed? s).toList (m.step s).fault?
      (logLines .warning ((m.step s).notices.map Effect.ofMachine)) := by
  obtain ⟨crashed, halted⟩ | ⟨running, f, stopped⟩ |
    ⟨running, i, next, decoded, performed, done⟩ := step_cases s m
  · have idle : m.deed? s = none := by rw [deed?, upcoming?, halted]; rfl
    rw [halted, idle]
    exact {
      lines_eq := by simp [jumpLines, faultLines, crashed, logLines]
      marked := trivial
      warned := by simp
      crashed := by simp [crashed] }
  · have idle : m.deed? s = none := by rw [deed?, upcoming?, stopped]; rfl
    rw [stopped, idle]
    exact {
      lines_eq := by
        rw [List.map_append, logLines_append, logLines_trace]
        simp [jumpLines, faultLines, running, logLines_fault]
      marked := trivial
      warned := by simp [advance]
      crashed := by simp }
  · have deed : m.deed? s = some ⟨m, i⟩ := by rw [deed?, upcoming?, done, decoded]; rfl
    rw [done, deed]
    exact {
      lines_eq := by
        rw [List.map_append, logLines_append, logLines_trace, logLines_selfJump?]
        simp [faultLines]
      marked := ⟨rfl, trivial⟩
      warned := by
        have marked : next.warned = (m.warned || decide (i = .jump m.pc)) :=
          here_advance m ▸ perform_warned (m := m.advance) performed
        simp [Deed.spins, count, tally, marked]
      crashed := by
        have kept : next.crashed = m.crashed := perform_crashed (m := m.advance) performed
        simp [count, tally, kept] }

/-- Which step reports a jump. -/
theorem selfJump_mem_step {deed : Deed} {site : Addr} (does : m.deed? s = some deed) :
    .selfJump site ∈ (m.step s).notices ↔
      deed.instruction = .jump m.pc ∧ site = m.pc ∧ m.warned = false := by
  have traced : Notice.selfJump site ∉ m.trace s := by
    unfold trace
    split <;> simp
  obtain ⟨i, upcoming, rfl⟩ := Option.map_eq_some_iff.mp does
  obtain ⟨-, halted⟩ | ⟨-, f, stopped⟩ | ⟨-, i', next, decoded, -, done⟩ := step_cases s m
  · rw [upcoming?, halted] at upcoming
    cases upcoming
  · rw [upcoming?, stopped] at upcoming
    cases upcoming
  · rw [upcoming?, done, decoded] at upcoming
    cases upcoming
    rw [done, selfJump?_advance]
    by_cases first : i = .jump m.pc ∧ m.warned = false
    · simp [traced, first]
    · rw [if_neg first]
      have never : i = .jump m.pc → site = m.pc → m.warned = true :=
        fun jumps _ => by simpa [jumps] using first
      simpa [traced] using never

end Machine

namespace Console

open Machine

variable {s : Setup} {pace : Pace} {c : Console} {op : Operation} {ops : List Operation}

/-! ## What frames and operations log -/

/-- **What the instructions of a frame log.** -/
theorem Running.logged_steps (n : Nat) {r : Running} (fine : r.fault? = none) :
    ∃ lines, logLines .warning (r.steps s n).effects = logLines .warning r.effects ++ lines ∧
      Logged r.machine (r.steps s n).machine (r.deeds s n) (r.steps s n).fault? lines := by
  -- on the number of instructions left
  induction n generalizing r with
  | zero => exact ⟨[], (List.append_nil _).symm, fine ▸ .quiet rfl rfl⟩
  | succ n ih =>
    have first : Logged r.machine (r.step s).machine (r.machine.deed? s).toList
        (r.step s).fault? _ :=
      logged_step s r.machine
    have logged : logLines .warning (r.step s).effects = logLines .warning r.effects ++
        logLines .warning ((r.machine.step s).notices.map Effect.ofMachine) := by
      simp [Running.effects, Running.step, logLines_append]
    rw [Running.steps, Running.deeds]
    split
    case isTrue =>
      rw [List.append_nil]
      exact ⟨_, logged, first⟩
    case isFalse going =>
      have calm : (r.step s).fault? = none := by
        simpa using (not_or.mp (Running.isOver_iff.not.mp going)).1
      obtain ⟨lines, later, rest⟩ := ih calm
      refine ⟨_, by rw [later, logged, List.append_assoc], ?_⟩
      simpa [calm] using first.append rest (by simp [calm])

/-- The tone is a matter of detail. -/
theorem logLines_ofAction (actions : List Speaker.Action) :
    logLines .warning (actions.map Effect.ofAction) = [] := by
  induction actions with
  | nil => rfl
  | cons action actions ih =>
    have apart : (action :: actions).map Effect.ofAction =
        [Effect.ofAction action] ++ actions.map Effect.ofAction := rfl
    rw [apart, logLines_append, ih]
    cases action <;> rfl

/-- The fault that ended a frame or another operation. -/
def Ending.fault? : Ending → Option Fault
  | .fault f => some f
  | _ => none

/-- The fault that an operation came to. -/
def FrameResult.fault? (r : FrameResult) : Option Fault :=
  r.ending.fault?

/-- A console reports the fault of the reply it takes over. -/
theorem fault?_withReply (c : Console) (r : Reply) : (c.withReply r).fault? = r.fault? := by
  simp only [FrameResult.fault?, withReply]
  split
  case h_1 failed => exact failed.symm
  case h_2 fine => exact fine.symm

/-- **What a frame logs** is what its instructions log. -/
theorem logged_frame (s : Setup) (pace : Pace) (accepts : Bool) (c : Console) :
    Logged c.machine (c.frame s pace accepts).console.machine (c.frameDeeds s pace)
      (c.frame s pace accepts).fault? (logLines .warning (c.frame s pace accepts).effects) := by
  obtain ⟨lines, logged, steps⟩ :=
    Running.logged_steps (s := s) pace.instructions (r := ⟨c.machine, [], none⟩) rfl
  have run : Logged c.machine (c.framed s pace).machine (c.frameDeeds s pace)
      (c.framed s pace).fault? (logLines .warning (c.framed s pace).effects) := by
    have whole : logLines .warning (c.framed s pace).effects = lines := logged
    rw [whole]
    exact steps
  have tone : logLines .warning (c.frameEffects (c.framed s pace)) =
      logLines .warning (c.framed s pace).effects := by
    rw [frameEffects, logLines_append, logLines_ofAction, List.append_nil]
  obtain ⟨f, bad, same⟩ | ⟨fine, -, same⟩ | ⟨fine, -, -, same⟩ | ⟨fine, -, -, same⟩ :=
    frame_cases s pace accepts c
  · rw [bad] at run
    rw [same]
    exact run
  all_goals
    rw [fine, ← tone] at run
    rw [same]
    exact { run with }

/-- An operation logs what its deeds and its fault call for. -/
theorem logged_operate (s : Setup) (pace : Pace) (c : Console) (stepped : ∀ w, op ≠ .execute w) :
    Logged c.machine (c.operate s pace op).console.machine (c.deedsOf s pace op)
      (c.operate s pace op).fault? (logLines .warning (c.operate s pace op).effects) := by
  cases op with
  | step =>
    rw [operate, fault?_withReply]
    exact logged_step s c.machine
  | execute w => exact absurd rfl (stepped w)
  | frame accepts => exact logged_frame s pace accepts c
  | _ => exact .quiet rfl rfl

/-! ## Whole runs -/

/-- A machine that has stopped does nothing more. -/
theorem deeds_of_crashed (stepped : ∀ w, .execute w ∉ ops) (crashed : c.machine.crashed = true) :
    c.deeds s pace ops = [] := by
  refine List.eq_nil_iff_forall_not_mem.mpr fun deed done => ?_
  have still : deed.machine.crashed = true :=
    forall_deeds_of_lasting (crashed_lasting s) crashed deed done
  have fine : (deed.machine.step s).fault? = none :=
    fault?_of_deed (deed?_of_deeds stepped deed done)
  rw [step_of_crashed still] at fine
  cases fine

/-- A machine that has stopped says nothing more. -/
theorem effects_of_crashed (stepped : ∀ w, .execute w ∉ ops) (crashed : c.machine.crashed = true) :
    ∀ r ∈ c.results s pace ops, r.effects = [] := by
  induction ops generalizing c with
  | nil => exact List.forall_mem_nil _
  | cons op ops ih =>
    refine List.forall_mem_cons.mpr ⟨?_, ?_⟩
    · cases op with
      | step => rw [operate_step_of_crashed pace crashed]
      | execute w => exact absurd List.mem_cons_self (stepped w)
      | frame accepts => rw [operate, frame_of_crashed pace accepts crashed]
      | _ => rfl
    · exact ih (fun w mem => stepped w (List.mem_cons_of_mem op mem))
        ((crashed_lasting s).of_operate pace op crashed)

/-- Operations one after another log what their deeds and their fault call for. -/
theorem logged_results (s : Setup) (pace : Pace) (c : Console) (stepped : ∀ w, .execute w ∉ ops) :
    Logged c.machine (c.afterAll s pace ops).machine (c.deeds s pace ops)
      ((c.results s pace ops).findSome? FrameResult.fault?)
      (logLines .warning ((c.results s pace ops).flatMap FrameResult.effects)) := by
  induction ops generalizing c with
  | nil => exact .quiet rfl rfl
  | cons op ops ih =>
    have first := logged_operate s pace c fun w isWord => stepped w (isWord ▸ List.mem_cons_self)
    have later : ∀ w, .execute w ∉ ops := fun w mem => stepped w (List.mem_cons_of_mem op mem)
    have idle : (c.operate s pace op).fault?.isSome →
        (c.operate s pace op).console.deeds s pace ops = [] := by
      intro failed
      refine deeds_of_crashed later ?_
      rw [first.crashed, failed, Bool.or_true]
    have met : (c.results s pace (op :: ops)).findSome? FrameResult.fault? =
        (c.operate s pace op).fault?.or
          (((c.operate s pace op).console.results s pace ops).findSome? FrameResult.fault?) := by
      rw [results, List.findSome?_cons]
      cases (c.operate s pace op).fault? <;> rfl
    rw [met, results, List.flatMap_cons, logLines_append]
    exact first.append (ih (c.operate s pace op).console later) idle

/-- **The log of a run.** Whatever is done with a console by steps, frames, keys and timers, the log
at level `warning` has a line about the first jump to its own address among all that is carried out,
unless such a jump had been reported before, then a line about the fault that the run meets, with
the text that the fault itself has, unless the machine had stopped before, and nothing else. Every
operation logs its own part of this. The step that reports a jump is the first one whose instruction
jumps to the address at which it stands. Once the machine has stopped, nothing is reported at any
level. The mark that a jump has been reported changes nothing else: with and without it the same
comes of any operations, but for the mark and the report. -/
theorem log_discipline (s : Setup) (pace : Pace) (c : Console) {ops : List Operation}
    (stepped : ∀ w, .execute w ∉ ops) :
    let deeds := c.deeds s pace ops
    let results := c.results s pace ops
    Logged c.machine (c.afterAll s pace ops).machine deeds (results.findSome? FrameResult.fault?)
        (logLines .warning (results.flatMap FrameResult.effects)) ∧
      (∀ before op after, ops = before ++ op :: after →
        let now := c.afterAll s pace before
        let result := now.operate s pace op
        Logged now.machine result.console.machine (now.deedsOf s pace op) result.fault?
          (logLines .warning result.effects)) ∧
      (∀ before deed after, deeds = before ++ deed :: after → ∀ site,
        .selfJump site ∈ (deed.machine.step s).notices ↔
          deed.instruction = .jump deed.machine.pc ∧ site = deed.machine.pc ∧
            c.machine.warned = false ∧ ∀ d ∈ before, d.instruction ≠ .jump d.machine.pc) ∧
      (∀ before after, ops = before ++ after →
        (c.afterAll s pace before).machine.crashed = true →
          ∀ result ∈ (c.afterAll s pace before).results s pace after, result.effects = []) ∧
      ∀ (warned : Bool) (ops : List Operation),
        let other : Console := { c with machine := { c.machine with warned } }
        (other.results s pace ops).map FrameResult.unwarned =
          (c.results s pace ops).map FrameResult.unwarned := by
  intro deeds results
  have run : Logged c.machine _ deeds _ _ := logged_results s pace c stepped
  refine ⟨run, ?_, ?_, ?_, ?_⟩
  · rintro before op after rfl
    refine logged_operate s pace _ fun w isWord => stepped w ?_
    exact List.mem_append_right _ (isWord ▸ List.mem_cons_self)
  · intro before deed after split site
    have listed : deed ∈ deeds := split ▸ List.mem_append_right before List.mem_cons_self
    have marks : Marked c.machine.warned (before ++ deed :: after) := split ▸ run.marked
    obtain ⟨-, marked, -⟩ := marked_append.mp marks
    rw [selfJump_mem_step (deed?_of_deeds stepped deed listed), marked]
    simp [Deed.spins]
  · rintro before after rfl crashed
    exact effects_of_crashed (fun w mem => stepped w (List.mem_append_right before mem)) crashed
  · intro warned ops other
    have same : other.unwarned = c.unwarned := rfl
    rw [← results_unwarned, same, results_unwarned]

/-- A console whose machine jumps on the spot, across the end of memory. -/
def treadmill : Console where
  machine := { Machine.empty with
    memory := Machine.empty.memory.write 0xFFF [0x1F, 0xFF]
    pc := 0xFFF }
  speaker := .silent {}

/-- A step and two frames, with a key in between. -/
def stepAndFrames : List Operation :=
  [.step, .frame true, .setKey 1 true, .frame true]

theorem log_discipline_treadmill :
    (∀ w, .execute w ∉ stepAndFrames) ∧
      logLines .warning ((treadmill.results {} slow stepAndFrames).flatMap FrameResult.effects) =
        ["WARNING chip8vm.chip8: Infinite jump detected at PC=0xFFF (further warnings suppressed)"] ∧
      (treadmill.afterAll {} slow stepAndFrames).machine.warned = true ∧
      logLines .warning ((stray.results {} slow stepAndFrames).flatMap FrameResult.effects) =
        ["ERROR chip8vm.chip8: ERROR: " ++ (Fault.unknown 0xFFFF 0xFFF).message] ∧
      ∀ result ∈ (stray.afterAll {} slow [.step]).results {} slow
        [.frame true, .setKey 1 true, .frame true], result.effects = [] := by
  have stepped : ∀ w, .execute w ∉ stepAndFrames := by simp [stepAndFrames]
  obtain ⟨jumping, -⟩ := log_discipline {} slow treadmill stepped
  obtain ⟨straying, -, -, silent, -⟩ := log_discipline {} slow stray stepped
  refine ⟨stepped, ?_, ?_, ?_, ?_⟩
  · rw [jumping.lines_eq]
    decide +kernel
  · rw [jumping.warned]
    decide +kernel
  · rw [straying.lines_eq]
    decide +kernel
  · exact silent [.step] _ rfl (by decide +kernel)

end Console

end Cosmac
