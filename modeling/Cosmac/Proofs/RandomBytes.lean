import Cosmac.Proofs.Accounts

/-!
# What the random bytes can change

Random bytes are taken in order and one at a time, each by a deed of its own. So two runs from the
same console whose sources agree on the first `k` bytes go alike as long as they take no more than
these, and they part at the deed that takes the next one. `Lockstep` puts the two cases together; it
holds of a step, and from there of a frame, of an operation and of all operations.
-/

namespace Cosmac

/-- The same setup with other random bytes. -/
def Setup.withRandom (s : Setup) (random : Nat → Byte) : Setup :=
  { s with random }

namespace Machine

/-- Two runs do the same deeds up to a random number, for which the same machine takes a byte after
`k` others. -/
def PartAfter (k : Nat) (first second : List Deed) : Prop :=
  ∃ before m x kk after after',
    first = before ++ ⟨m, .random x kk⟩ :: after ∧
      second = before ++ ⟨m, .random x kk⟩ :: after' ∧ m.drawn = k

/-- Of two runs with the given deeds, the first of which took so many random bytes: they are alike
if it took at most `k`, and else they part after these. -/
def Lockstep (k drawn : Nat) (alike : Prop) (first second : List Deed) : Prop :=
  (drawn ≤ k ∧ alike ∧ second = first) ∨ (k < drawn ∧ PartAfter k first second)

variable {k drawn drawn' : Nat} {alike alike' : Prop} {first second first' second' : List Deed}

/-- Runs that are in lockstep stay so if what they do next is, given that they were alike. -/
theorem Lockstep.append (before : Lockstep k drawn alike first second) (onward : drawn ≤ drawn')
    (next : drawn ≤ k → alike → Lockstep k drawn' alike' first' second') :
    Lockstep k drawn' alike' (first ++ first') (second ++ second') := by
  obtain ⟨within, same, deeds⟩ | ⟨past, parted⟩ := before
  · obtain ⟨within', same', deeds'⟩ | ⟨past', done, m, x, kk, after, after', left, right, taken⟩ :=
      next within same
    · exact .inl ⟨within', same', by rw [deeds, deeds']⟩
    · refine .inr ⟨past', first ++ done, m, x, kk, after, after', ?_, ?_, taken⟩
      · rw [left, List.append_assoc]
      · rw [deeds, right, List.append_assoc]
  · obtain ⟨done, m, x, kk, after, after', left, right, taken⟩ := parted
    refine .inr ⟨Nat.lt_of_lt_of_le past onward, done, m, x, kk, after ++ first', after' ++ second',
      ?_, ?_, taken⟩
    · rw [left, List.append_assoc, List.cons_append]
    · rw [right, List.append_assoc, List.cons_append]

/-- Two runs part at a random number that goes beyond the first `k`. -/
theorem Lockstep.of_random {m : Machine} (past : k < drawn) (taken : m.drawn = k) (x : Nibble)
    (kk : Byte) : Lockstep k drawn alike [⟨m, .random x kk⟩] [⟨m, .random x kk⟩] :=
  .inr ⟨past, [], m, x, kk, [], [], rfl, rfl, taken⟩

/-- Runs in lockstep are so under every weaker likeness. -/
theorem Lockstep.mono (runs : Lockstep k drawn alike first second) (weaker : alike → alike') :
    Lockstep k drawn alike' first second :=
  runs.imp_left fun ⟨within, same, deeds⟩ => ⟨within, weaker same, deeds⟩

/-- Before the byte at which the sources differ, the runs are alike. -/
theorem Lockstep.alike_of_le (runs : Lockstep k drawn alike first second) (within : drawn ≤ k) :
    alike ∧ second = first := by
  obtain ⟨-, same⟩ | ⟨past, -⟩ := runs
  · exact same
  · exact absurd within (Nat.not_le_of_lt past)

/-- Past that byte they have parted at the instruction that drew it. -/
theorem Lockstep.parted_of_lt (runs : Lockstep k drawn alike first second) (past : k < drawn) :
    PartAfter k first second := by
  obtain ⟨within, -⟩ | ⟨-, parted⟩ := runs
  · exact absurd within (Nat.not_le_of_lt past)
  · exact parted

/-- The bytes that were taken are not given back. -/
theorem drawn_lasting (s : Setup) (n : Nat) : Lasting s fun m => n ≤ m.drawn := by
  refine lasting_of_accounts (fun _ _ drawn => n ≤ drawn) ?_ id
  intro m next i performed before
  rw [perform_drawn performed]
  omega

variable {s : Setup} {m : Machine} {random : Nat → Byte}

/-! ## Steps and words -/

/-- Only an instruction that draws a byte sees which source it comes from. -/
theorem perform_withRandom {i : Instruction}
    (agree : ∀ x kk, i = .random x kk → s.random m.drawn = random m.drawn) :
    m.perform (s.withRandom random) i = m.perform s i := by
  cases i with
  | random x kk =>
    have same : s.random m.drawn = random m.drawn := agree x kk rfl
    simp only [perform, same, Setup.withRandom]
  | _ => rfl

/-- Only a word that draws a byte sees which source it comes from. -/
theorem execute_withRandom {w : Word} (agree : ∀ x kk, Instruction.decode? w = some (.random x kk) →
      s.random m.drawn = random m.drawn) :
    m.execute (s.withRandom random) w = m.execute s w := by
  rw [execute_eq, execute_eq]
  cases decoded : Instruction.decode? w with
  | none => rfl
  | some i =>
    have same : m.perform (s.withRandom random) i = m.perform s i :=
      perform_withRandom fun x kk isRandom => agree x kk (isRandom ▸ decoded)
    simp only [same]

/-- A machine that comes to a random number takes it, for this meets no fault. -/
theorem deed?_eq_random_iff {x : Nibble} {kk : Byte} :
    m.deed? s = some ⟨m, .random x kk⟩ ↔
      m.crashed = false ∧ Instruction.decode? m.word = some (.random x kk) := by
  constructor
  · intro does
    obtain ⟨i, upcoming, same⟩ := Option.map_eq_some_iff.mp does
    cases same
    obtain ⟨fine, decoded⟩ := Option.ite_none_right_eq_some.mp upcoming
    cases crashed : m.crashed with
    | true =>
      rw [step_of_crashed crashed] at fine
      cases fine
    | false => exact ⟨rfl, decoded⟩
  · rintro ⟨running, decoded⟩
    rw [deed?, upcoming?, fault?_step_of_running running, execute_eq, decoded]
    rfl

/-- A word that draws a byte is carried out. -/
theorem deedOf?_of_random {w : Word} {x : Nibble} {kk : Byte}
    (decoded : Instruction.decode? w = some (.random x kk)) :
    m.deedOf? s w = some ⟨m, .random x kk⟩ := by
  rw [deedOf?, execute_eq, decoded]
  rfl

/-- A step that draws a byte sets one register and counts, whatever the byte is. -/
theorem step_of_random {x : Nibble} {kk : Byte} (does : m.deed? s = some ⟨m, .random x kk⟩) :
    (m.step s).machine = count { m.advance with
      v := m.v.set x (s.random m.drawn &&& kk)
      drawn := m.drawn + 1
      counters := { m.counters with randoms := m.counters.randoms + 1 } } := by
  obtain ⟨idle, -⟩ | ⟨i, next, deed, -, performed, same⟩ := deed_cases s m
  · rw [idle] at does
    cases does
  · rw [deed] at does
    cases does
    cases performed
    exact same

/-- An instruction takes one of the first `k` bytes or none. -/
theorem drawn_le_of_spare {next : Machine} {i : Instruction} (performed : m.perform s i = .ok next)
    (within : m.drawn ≤ k) (spare : ∀ x kk, i = .random x kk → m.drawn ≠ k) : next.drawn ≤ k := by
  rw [perform_drawn performed]
  cases i with
  | random x kk => exact Nat.lt_of_le_of_ne within (spare x kk rfl)
  | _ => exact within

/-- A word keeps two sources in lockstep. -/
theorem execute_lockstep (agree : ∀ j < k, s.random j = random j) (within : m.drawn ≤ k)
    (w : Word) :
    Lockstep k (m.execute s w).machine.drawn
      (m.execute (s.withRandom random) w = m.execute s w)
      (m.deedOf? s w).toList (m.deedOf? (s.withRandom random) w).toList := by
  by_cases takes : ∃ x kk, Instruction.decode? w = some (.random x kk) ∧ m.drawn = k
  · obtain ⟨x, kk, decoded, taken⟩ := takes
    have drawn : (m.execute s w).machine.drawn = m.drawn + 1 := by
      rw [execute_eq, decoded]
      rfl
    rw [deedOf?_of_random decoded, deedOf?_of_random decoded]
    exact .of_random (by omega) taken x kk
  · have spare : ∀ x kk, Instruction.decode? w = some (.random x kk) → m.drawn ≠ k :=
      fun x kk decoded taken => takes ⟨x, kk, decoded, taken⟩
    have same : m.execute (s.withRandom random) w = m.execute s w :=
      execute_withRandom fun x kk decoded =>
        agree m.drawn (Nat.lt_of_le_of_ne within (spare x kk decoded))
    refine .inl ⟨?_, same, by rw [deedOf?, deedOf?, same]⟩
    obtain ⟨f, stopped⟩ | ⟨i, next, decoded, performed, done⟩ := execute_cases s m w
    · rw [stopped]
      exact within
    · rw [done]
      exact drawn_le_of_spare performed within fun x kk isRandom => spare x kk (isRandom ▸ decoded)

/-- A step takes one of the bytes on which the sources agree, takes the next one or takes none. -/
theorem step_lockstep (agree : ∀ j < k, s.random j = random j) (within : m.drawn ≤ k) :
    Lockstep k (m.step s).machine.drawn (m.step (s.withRandom random) = m.step s)
      (m.deed? s).toList (m.deed? (s.withRandom random)).toList := by
  by_cases takes : ∃ x kk, m.deed? s = some ⟨m, .random x kk⟩ ∧ m.drawn = k
  · obtain ⟨x, kk, does, taken⟩ := takes
    have drawn : (m.step s).machine.drawn = m.drawn + 1 := by
      rw [step_of_random does]
      rfl
    rw [does, deed?_eq_random_iff.mpr (deed?_eq_random_iff.mp does)]
    exact .of_random (by omega) taken x kk
  · have spare : ∀ x kk, m.deed? s = some ⟨m, .random x kk⟩ → m.drawn ≠ k :=
      fun x kk does taken => takes ⟨x, kk, does, taken⟩
    have same : m.step (s.withRandom random) = m.step s := by
      refine step_congr rfl fun running => execute_withRandom fun x kk decoded => ?_
      exact agree m.drawn
        (Nat.lt_of_le_of_ne within (spare x kk (deed?_eq_random_iff.mpr ⟨running, decoded⟩)))
    refine .inl ⟨?_, same, by rw [deed?, deed?, upcoming?, upcoming?, same]⟩
    obtain ⟨-, -, still | still⟩ | ⟨i, next, deed, -, performed, done⟩ := deed_cases s m
    · rw [still]
      exact within
    · rw [still]
      exact within
    · have spared : next.drawn ≤ k :=
        drawn_le_of_spare performed within fun x kk isRandom => spare x kk (isRandom ▸ deed)
      rw [done]
      exact spared

end Machine

namespace Console

open Machine

variable {s : Setup} {pace : Pace} {c : Console} {random : Nat → Byte} {k : Nat}

/-! ## Frames and operations -/

/-- The steps of a frame keep two sources in lockstep. -/
theorem Running.steps_lockstep (agree : ∀ j < k, s.random j = random j) (n : Nat) {r : Running}
    (within : r.machine.drawn ≤ k) :
    Lockstep k (r.steps s n).machine.drawn (r.steps (s.withRandom random) n = r.steps s n)
      (r.deeds s n) (r.deeds (s.withRandom random) n) := by
  induction n generalizing r with
  | zero => exact .inl ⟨within, rfl, rfl⟩
  | succ n ih =>
    have first : Lockstep k (r.step s).machine.drawn (r.step (s.withRandom random) = r.step s)
        (r.machine.deed? s).toList (r.machine.deed? (s.withRandom random)).toList :=
      (step_lockstep agree within).mono fun same => by rw [Running.step, same]; rfl
    have onward : (r.step s).machine.drawn ≤ (r.steps s (n + 1)).machine.drawn := by
      rw [Running.steps]
      split
      · exact Nat.le_refl _
      · exact (drawn_lasting s _).of_steps n (Nat.le_refl _)
    refine first.append onward fun within same => ?_
    have stop : (r.step s).isOver (s.withRandom random) = (r.step s).isOver s := rfl
    rw [Running.steps, Running.steps, same, stop]
    split
    · exact .inl ⟨within, rfl, rfl⟩
    · exact ih within

/-- A frame keeps two sources in lockstep; what it does after its steps draws nothing. -/
theorem frame_lockstep (agree : ∀ j < k, s.random j = random j) (within : c.machine.drawn ≤ k)
    (accepts : Bool) :
    Lockstep k (c.frame s pace accepts).console.machine.drawn
      (c.frame (s.withRandom random) pace accepts = c.frame s pace accepts)
      (c.frameDeeds s pace) (c.frameDeeds (s.withRandom random) pace) := by
  rw [view_frame Machine.drawn (fun _ => rfl) (fun _ => rfl)]
  refine (Running.steps_lockstep agree pace.instructions within).mono fun same => ?_
  simp only [frame, same]

/-- An operation keeps two sources in lockstep. -/
theorem operate_lockstep (agree : ∀ j < k, s.random j = random j) (within : c.machine.drawn ≤ k)
    (op : Operation) :
    Lockstep k (c.operate s pace op).console.machine.drawn
      (c.operate (s.withRandom random) pace op = c.operate s pace op)
      (c.deedsOf s pace op) (c.deedsOf (s.withRandom random) pace op) := by
  cases op with
  | step => exact (step_lockstep agree within).mono fun same => by rw [operate, same]; rfl
  | execute w => exact (execute_lockstep agree within w).mono fun same => by rw [operate, same]; rfl
  | frame accepts => exact frame_lockstep agree within accepts
  | _ => exact .inl ⟨within, rfl, rfl⟩

/-- **Sources that agree on their first bytes keep any operations in lockstep.** -/
theorem afterAll_lockstep (agree : ∀ j < k, s.random j = random j) (within : c.machine.drawn ≤ k)
    (ops : List Operation) :
    Lockstep k (c.afterAll s pace ops).machine.drawn
      (c.afterAll (s.withRandom random) pace ops = c.afterAll s pace ops)
      (c.deeds s pace ops) (c.deeds (s.withRandom random) pace ops) := by
  induction ops generalizing c with
  | nil =>
    rw [afterAll_nil, afterAll_nil]
    exact .inl ⟨within, rfl, rfl⟩
  | cons op ops ih =>
    have onward : (c.operate s pace op).console.machine.drawn ≤
        ((c.operate s pace op).console.afterAll s pace ops).machine.drawn :=
      (drawn_lasting s _).of_afterAll pace ops (Nat.le_refl _)
    rw [afterAll_cons, afterAll_cons, deeds, deeds]
    refine (operate_lockstep agree within op).append onward fun within same => ?_
    rw [same]
    exact ih within

/-! ## Whole runs -/

/-- **A run depends on the random bytes that it takes, and on no others.** Take a console whose
machine is empty apart from its memory, and a second source whose first `k` bytes are the same. As
long as no more than `k` random numbers were taken, any operations do the same deeds and lead to the
same console, speaker and counts of frames included, and whatever is done next comes to the same if
it takes no more than these either. If more are taken, and no word is carried out from outside, the
runs do the same deeds up to the random number after the `k`-th. Each puts the byte of its own
source there, masked, into the same register, and right after it the machines differ in that
register at most. -/
theorem afterAll_withRandom (s : Setup) (pace : Pace) {c : Console} {memory : Table 12 Byte}
    (fresh : c.machine = { Machine.empty with memory }) {k : Nat} {random : Nat → Byte}
    (agree : ∀ j < k, s.random j = random j) (ops : List Operation) :
    let t := s.withRandom random
    let last := c.afterAll s pace ops
    (last.machine.counters.randoms ≤ k →
      c.afterAll t pace ops = last ∧ c.deeds t pace ops = c.deeds s pace ops ∧
        ∀ op, (last.operate s pace op).console.machine.counters.randoms ≤ k →
          last.operate t pace op = last.operate s pace op) ∧
      ((∀ w, .execute w ∉ ops) → k < last.machine.counters.randoms →
        ∃ before m x kk after after',
          c.deeds s pace ops = before ++ ⟨m, .random x kk⟩ :: after ∧
          c.deeds t pace ops = before ++ ⟨m, .random x kk⟩ :: after' ∧
          m.counters.randoms = k ∧
          let next := (m.step s).machine
          let next' := (m.step t).machine
          next.v[x] = s.random k &&& kk ∧ next'.v[x] = random k &&& kk ∧
            next' = { next with v := next.v.set x (random k &&& kk) }) := by
  intro t last
  have accounted : Accounted c.machine.counters c.machine.sp c.machine.drawn := by
    rw [fresh]
    exact ⟨rfl, rfl⟩
  have within : c.machine.drawn ≤ k := by
    rw [fresh]
    exact Nat.zero_le k
  have counted := (accounted_lasting s).of_afterAll pace ops accounted
  have runs : Lockstep k last.machine.drawn (c.afterAll t pace ops = last) (c.deeds s pace ops)
      (c.deeds t pace ops) := afterAll_lockstep agree within ops
  constructor
  · intro few
    have taken : last.machine.drawn ≤ k := counted.2 ▸ few
    obtain ⟨same, deeds⟩ := runs.alike_of_le taken
    refine ⟨same, deeds, fun op fewMore => ?_⟩
    have onward := (accounted_lasting s).of_operate pace op counted
    exact ((operate_lockstep agree taken op).alike_of_le (onward.2 ▸ fewMore)).1
  · intro stepped many
    have past : k < last.machine.drawn := counted.2 ▸ many
    obtain ⟨before, m, x, kk, after, after', left, right, taken⟩ := runs.parted_of_lt past
    have listed : (⟨m, .random x kk⟩ : Deed) ∈ before ++ ⟨m, .random x kk⟩ :: after :=
      List.mem_append_right before List.mem_cons_self
    have does : m.deed? s = some ⟨m, .random x kk⟩ := deed?_of_deeds stepped _ (left ▸ listed)
    have does' : m.deed? t = some ⟨m, .random x kk⟩ :=
      deed?_eq_random_iff.mpr (deed?_eq_random_iff.mp does)
    have atDeed : m.counters.randoms = m.drawn :=
      (forall_deeds_of_lasting (accounted_lasting s) accounted _ (left ▸ listed)).2
    refine ⟨before, m, x, kk, after, after', left, right, atDeed.trans taken, ?_⟩
    simp only [step_of_random does, step_of_random does', taken]
    refine ⟨Table.getElem_set_self _ _ _, Table.getElem_set_self _ _ _, ?_⟩
    simp only [count, tally, Table.set_set]
    rfl

/-- A console with a program that takes two random numbers again and again. -/
def taker : Console where
  machine := { Machine.empty with
    memory := (Machine.empty.memory.write 0 font).write programStart
      [0xC0, 0xFF, 0xC1, 0x0F, 0x12, 0x00] }
  speaker := .silent {}

/-- A key and two frames, with a timer in between. -/
def keyAndTimer : List Operation :=
  [.setKey 5 true, .frame true, .setDelay 9, .frame true]

/-- A source that goes on with other bytes after two zeros. -/
def twoZeros (j : Nat) : Byte :=
  if j < 2 then 0 else 0xAB

theorem afterAll_withRandom_taker :
    let t := Setup.withRandom {} twoZeros
    let pace : Pace := ⟨2, by decide⟩
    boot (.bytes [0xC0, 0xFF, 0xC1, 0x0F, 0x12, 0x00]) = .ok (taker.machine, 6) ∧
      (taker.afterAll {} pace [.setKey 5 true, .frame true]).machine.counters.randoms = 2 ∧
      taker.afterAll t pace [.setKey 5 true, .frame true] =
        taker.afterAll {} pace [.setKey 5 true, .frame true] ∧
      (taker.afterAll {} pace keyAndTimer).machine.counters.randoms = 3 ∧
      ∃ before m x kk after after',
        taker.deeds {} pace keyAndTimer = before ++ ⟨m, .random x kk⟩ :: after ∧
        taker.deeds t pace keyAndTimer = before ++ ⟨m, .random x kk⟩ :: after' ∧
        m.counters.randoms = 2 ∧ (m.step {}).machine.v[x] = 0 &&& kk ∧
        (m.step t).machine.v[x] = 0xAB &&& kk := by
  intro t pace
  have agree : ∀ j < 2, ({} : Setup).random j = twoZeros j := by decide
  have few : (taker.afterAll {} pace [.setKey 5 true, .frame true]).machine.counters.randoms = 2 := by
    decide +kernel
  have many : (taker.afterAll {} pace keyAndTimer).machine.counters.randoms = 3 := by
    decide +kernel
  have stepped : ∀ w, Operation.execute w ∉ keyAndTimer := by
    simp [keyAndTimer]
  obtain ⟨alike, -⟩ := afterAll_withRandom {} pace (c := taker) rfl agree
    [.setKey 5 true, .frame true]
  obtain ⟨-, parted⟩ := afterAll_withRandom {} pace (c := taker) rfl agree keyAndTimer
  obtain ⟨before, m, x, kk, after, after', left, right, taken, mine, other, -⟩ :=
    parted stepped (by omega)
  exact ⟨rfl, few, (alike (by omega)).1, many,
    before, m, x, kk, after, after', left, right, taken, mine, other⟩

end Console

end Cosmac
