import Cosmac.Proofs.FrameCounts
import Cosmac.Proofs.Deeds

/-!
# Waiting for a key

A machine that waits for a key stays where it is as long as no key is down: steps and frames change
nothing but counters, and what frames do to timers and tone anyway. When keys are down, the
instruction takes the lowest of them, and it alone. So a chain of such instructions takes the lowest
keys one after another.

A wait moves the program counter on and back again, which comes to the same at every address.
-/

namespace Cosmac

/-- The nibbles are listed in ascending order. -/
theorem Nibble.pairwise_all : Nibble.all.Pairwise (· < ·) :=
  Table.pairwise_indices

namespace Machine

/-- The word at an address; it may wrap around the end of memory. -/
def wordAt (m : Machine) (a : Addr) : Word :=
  m.memory[a] ++ m.memory[a + 1]

/-- The machine has not stopped, the word at the program counter waits for a key that goes to
register `x`, and no key is down. -/
structure Waits (m : Machine) (x : Nibble) : Prop where
  running : m.crashed = false
  word : m.word = (Instruction.awaitKey x).encode
  up : ∀ k : Nibble, m.keys[k] = false

/-- The machine after it has waited `n` instructions more. -/
def waited (m : Machine) (n : Nat) : Machine :=
  m.tally fun c => { c with instructions := c.instructions + n, keyWaits := c.keyWaits + n }

/-- The machine after it has taken key `k` into register `x`. -/
def served (m : Machine) (x k : Nibble) : Machine :=
  { m with
    v := m.v.set x (k.setWidth 8)
    keys := m.keys.set k false
    pc := m.pc + 2
    counters := { m.counters with instructions := m.counters.instructions + 1 } }

/-- The machine after some keys went down. -/
def press (m : Machine) (ks : List Nibble) : Machine :=
  ks.foldl (fun m k => m.setKey k true) m

/-- The keys that are down, in ascending order. -/
def down (m : Machine) : List Nibble :=
  Nibble.all.filter fun k => m.keys[k]

variable {s : Setup} {m : Machine} {x k : Nibble}

/-- Waiting twice is waiting for the sum. -/
theorem waited_waited (m : Machine) (a b : Nat) : (m.waited a).waited b = m.waited (a + b) := by
  simp only [waited, tally, Nat.add_assoc]

/-- Who waits goes on waiting. -/
theorem Waits.still (waits : m.Waits x) (n : Nat) : (m.waited n).Waits x :=
  ⟨waits.running, waits.word, waits.up⟩

/-! ## One step -/

/-- **Without a key the instruction stays where it is.** -/
theorem Waits.step (s : Setup) (waits : m.Waits x) :
    m.step s = ⟨m.waited 1, m.trace s, none⟩ := by
  have none : m.advance.lowestKey? = none := by
    simp [lowestKey?, advance, waits.up]
  have performed : m.advance.perform s (.awaitKey x) = .ok { m.advance with
      pc := m.advance.here
      counters := { m.counters with keyWaits := m.counters.keyWaits + 1 } } := by
    simp only [perform, none]
    rfl
  have back : m.advance.here = m.pc := BitVec.add_sub_cancel m.pc instructionSize
  rw [step_of_running waits.running, waits.word, execute_encode performed, back]
  simp [Reply.ofStep, selfJump?, waited, tally, count, advance]

/-- **With keys down the lowest one is taken**, and it alone. -/
theorem step_served (s : Setup) (running : m.crashed = false)
    (word : m.word = (Instruction.awaitKey x).encode) (lowest : m.lowestKey? = some k) :
    m.step s = ⟨m.served x k, m.trace s, none⟩ := by
  have same : m.advance.lowestKey? = some k := lowest
  have performed : m.advance.perform s (.awaitKey x) = .ok { m.advance with
      v := m.v.set x (k.setWidth 8)
      keys := m.keys.set k false } := by
    simp only [perform, same]
    rfl
  rw [step_of_running running, word, execute_encode performed]
  simp [Reply.ofStep, selfJump?, served, tally, count, advance, instructionSize]

/-! ## Steps and frames without a key -/

/-- **A wait can go on for any number of steps.** -/
theorem Waits.after (s : Setup) (waits : m.Waits x) (n : Nat) : m.after s n = m.waited n := by
  induction n with
  | zero => rfl
  | succ n ih => rw [Machine.after, ih, (waits.still n).step s, waited_waited]

/-- No step of a waiting machine fails. -/
theorem Waits.succeeds (s : Setup) (waits : m.Waits x) (n : Nat) : m.Succeeds s n := by
  intro j _
  rw [waits.after, (waits.still j).step s]

/-- A frame is all waiting. -/
theorem Waits.frameEnd (s : Setup) (waits : m.Waits x) (clean : m.dirty = false) {n : Nat}
    (positive : 0 < n) : m.FrameEnd s n (n - 1) where
  lt := Nat.sub_lt positive Nat.one_pos
  goesOn := by
    intro i _
    refine ⟨waits.succeeds s (i + 1) i (Nat.lt_succ_self i), fun _ => ?_⟩
    rw [waits.after]
    exact clean
  ends := by omega

/-! ## Keys that go down -/

/-- Pressing keys touches nothing but the keys. -/
theorem press_eq (m : Machine) (ks : List Nibble) :
    m.press ks = { m with keys := (m.press ks).keys } := by
  induction ks generalizing m with
  | nil => rfl
  | cons k ks ih => exact ih (m.setKey k true)

/-- Down are the keys that were down and those that are pressed. -/
theorem keys_press (m : Machine) (ks : List Nibble) (j : Nibble) :
    (m.press ks).keys[j] = true ↔ m.keys[j] = true ∨ j ∈ ks := by
  induction ks generalizing m with
  | nil => simp [press]
  | cons k ks ih =>
    have first : m.press (k :: ks) = (m.setKey k true).press ks := rfl
    rw [first, ih, setKey, Table.getElem_set, List.mem_cons]
    by_cases same : j = k <;> simp [same]

/-- The list has the keys that are down. -/
theorem mem_down : k ∈ m.down ↔ m.keys[k] = true := by
  rw [down, List.mem_filter]
  exact and_iff_right (Nibble.mem_all k)

/-- The keys that are down are listed in ascending order. -/
theorem pairwise_down (m : Machine) : m.down.Pairwise (· < ·) :=
  Nibble.pairwise_all.filter _

/-- The lowest key is the first one listed. -/
theorem lowestKey?_eq_head? (m : Machine) : m.lowestKey? = m.down.head? :=
  List.head?_filter.symm

/-- The lowest key is the first one of those that are down. -/
theorem lowestKey?_of_least (pressed : m.keys[k] = true)
    (least : ∀ j : Nibble, m.keys[j] = true → k ≤ j) : m.lowestKey? = some k := by
  have listed := mem_down.mpr pressed
  rw [lowestKey?_eq_head?]
  cases keys : m.down with
  | nil =>
    rw [keys] at listed
    cases listed
  | cons j rest =>
    have ascending := m.pairwise_down
    rw [keys] at listed ascending
    obtain rfl | later := List.mem_cons.mp listed
    · rfl
    · have less : j < k := List.rel_of_pairwise_cons ascending later
      have more : k ≤ j := least j (mem_down.mp (by rw [keys]; exact List.mem_cons_self))
      exact absurd less (BitVec.not_lt.mpr more)

/-- **The key that is taken is down no more**; the others still are. -/
theorem down_served {rest : List Nibble} (keys : m.down = k :: rest) :
    (m.served x k).down = rest := by
  have apart : k ∉ rest := by
    have ascending := m.pairwise_down
    rw [keys] at ascending
    exact fun again => BitVec.lt_irrefl k (List.rel_of_pairwise_cons ascending again)
  have others : (m.served x k).down = m.down.filter (· ≠ k) := by
    rw [down, down, List.filter_filter]
    apply List.filter_congr
    intro j _
    rw [served, Table.getElem_set]
    by_cases same : j = k <;> simp [same]
  rw [others, keys, List.filter_cons_of_neg (by simp), List.filter_eq_self]
  intro j later
  have differs : j ≠ k := fun same => apart (same ▸ later)
  exact decide_eq_true differs

/-! ## Chains -/

/-- The machine has not stopped, and the words from the program counter on wait for keys that go to
the registers of a list. -/
structure Chain (m : Machine) (xs : List Nibble) : Prop where
  running : m.crashed = false
  words : ∀ i x, xs[i]? = some x →
    m.wordAt (m.pc + BitVec.ofNat 12 (2 * i)) = (Instruction.awaitKey x).encode

variable {xs : List Nibble}

/-- A chain begins with the word that waits for its first register. -/
theorem Chain.first (chain : m.Chain (x :: xs)) : m.word = (Instruction.awaitKey x).encode := by
  have word := chain.words 0 x rfl
  rw [Nat.mul_zero, BitVec.add_zero] at word
  exact word

/-- Once a wait is served, the rest of the chain is ahead. -/
theorem Chain.rest (chain : m.Chain (x :: xs)) (k : Nibble) : (m.served x k).Chain xs where
  running := chain.running
  words := by
    intro i y listed
    have next : m.pc + 2 + BitVec.ofNat 12 (2 * i) = m.pc + BitVec.ofNat 12 (2 * (i + 1)) := by
      rw [BitVec.add_assoc, Nat.mul_add, Nat.add_comm, BitVec.ofNat_add]
      rfl
    have word := chain.words (i + 1) y listed
    rw [← next] at word
    exact word

/-- The machine after it has taken keys into registers one after another. -/
def servedAll (m : Machine) (taken : List (Nibble × Nibble)) : Machine :=
  taken.foldl (fun m (x, k) => m.served x k) m

/-- **A chain takes the keys that are down in their order.** -/
theorem Chain.after (s : Setup) (chain : m.Chain xs) (enough : xs.length ≤ m.down.length) :
    m.Succeeds s xs.length ∧
      ∀ n ≤ xs.length, m.after s n = m.servedAll ((xs.zip m.down).take n) := by
  -- on the registers that are left, from the machine that has served the earlier ones
  induction xs generalizing m with
  | nil =>
    refine ⟨nofun, fun n none => ?_⟩
    rw [Nat.le_zero.mp none]
    rfl
  | cons x xs ih =>
    obtain ⟨k, rest, keys⟩ : ∃ k rest, m.down = k :: rest :=
      List.exists_cons_of_length_pos (Nat.lt_of_lt_of_le (Nat.succ_pos _) enough)
    have lowest : m.lowestKey? = some k := by rw [lowestKey?_eq_head?, keys]; rfl
    have step := step_served s chain.running chain.first lowest
    have left := down_served (x := x) keys
    obtain ⟨fine, later⟩ := ih (chain.rest k) (by
      rw [left]
      rw [keys] at enough
      exact Nat.le_of_succ_le_succ enough)
    constructor
    · intro j before
      cases j with
      | zero => exact congrArg Reply.fault? step
      | succ j =>
        rw [after_succ, step]
        exact fine j (Nat.lt_of_succ_lt_succ before)
    · intro n within
      cases n with
      | zero => rfl
      | succ n =>
        rw [after_succ, step, later n (Nat.le_of_succ_le_succ within), left, keys]
        rfl

/-- Serving waits touches registers and keys, moves the program counter on and counts
instructions. -/
theorem servedAll_eq (m : Machine) (taken : List (Nibble × Nibble)) :
    m.servedAll taken = { m with
      v := (m.servedAll taken).v
      keys := (m.servedAll taken).keys
      pc := m.pc + BitVec.ofNat 12 (2 * taken.length)
      counters := { m.counters with
        instructions := m.counters.instructions + taken.length } } := by
  induction taken generalizing m with
  | nil => rw [List.length_nil, Nat.mul_zero, BitVec.add_zero]; rfl
  | cons p taken ih =>
    have next : m.pc + 2 + BitVec.ofNat 12 (2 * taken.length) =
        m.pc + BitVec.ofNat 12 (2 * (taken.length + 1)) := by
      rw [BitVec.add_assoc, Nat.mul_add, Nat.add_comm, BitVec.ofNat_add]
      rfl
    have counted : m.counters.instructions + 1 + taken.length =
        m.counters.instructions + (taken.length + 1) := by omega
    have later := ih (m.served p.1 p.2)
    simp only [served, next, counted] at later
    exact later

/-- Every key that is taken is up afterwards; the others stay as they are. -/
theorem keys_servedAll (m : Machine) (taken : List (Nibble × Nibble)) (j : Nibble) :
    (m.servedAll taken).keys[j] = true ↔ m.keys[j] = true ∧ j ∉ taken.map (·.2) := by
  induction taken generalizing m with
  | nil => simp [servedAll]
  | cons p taken ih =>
    have first : m.servedAll (p :: taken) = (m.served p.1 p.2).servedAll taken := rfl
    rw [first, ih, served, Table.getElem_set, List.map_cons, List.mem_cons, not_or]
    by_cases same : j = p.2 <;> simp [same]

/-- A register that no wait asks for keeps its value. -/
theorem v_servedAll (m : Machine) (taken : List (Nibble × Nibble)) {r : Nibble}
    (other : r ∉ taken.map (·.1)) : (m.servedAll taken).v[r] = m.v[r] := by
  induction taken generalizing m with
  | nil => rfl
  | cons p taken ih =>
    rw [List.map_cons, List.mem_cons, not_or] at other
    have first : m.servedAll (p :: taken) = (m.served p.1 p.2).servedAll taken := rfl
    rw [first, ih _ other.2]
    exact Table.getElem_set_ne _ _ other.1

/-- What a chain of waits for keys does that takes the keys of a list: they are the lowest ones that
were down, in ascending order, and each of them is in its register right after its instruction. -/
structure Serves (s : Setup) (m : Machine) (xs taken : List Nibble) : Prop where
  length : taken.length = xs.length
  ascending : taken.Pairwise (· < ·)
  pressed : ∀ k ∈ taken, m.keys[k] = true
  lowest : ∀ k ∈ taken, ∀ j : Nibble, m.keys[j] = true → j ∉ taken → k < j
  succeeds : m.Succeeds s xs.length
  stored : ∀ (i : Nat) (x k : Nibble), xs[i]? = some x → taken[i]? = some k →
    (m.after s (i + 1)).v[x].toNat = k.toNat
  keys : ∀ j : Nibble, (m.after s xs.length).keys[j] = true ↔ m.keys[j] = true ∧ j ∉ taken
  registers : ∀ r ∉ xs, (m.after s xs.length).v[r] = m.v[r]
  rest : m.after s xs.length = { m with
    v := (m.after s xs.length).v
    keys := (m.after s xs.length).keys
    pc := m.pc + BitVec.ofNat 12 (2 * xs.length)
    counters := { m.counters with instructions := m.counters.instructions + xs.length } }

/-- **A chain takes the lowest keys.** -/
theorem Chain.serves (s : Setup) (chain : m.Chain xs) (enough : xs.length ≤ m.down.length) :
    m.Serves s xs (m.down.take xs.length) := by
  obtain ⟨succeeds, after⟩ := chain.after s enough
  have length : (m.down.take xs.length).length = xs.length := List.length_take_of_le enough
  have all : m.after s xs.length = m.servedAll (xs.zip (m.down.take xs.length)) := by
    rw [after _ (Nat.le_refl _), List.zip, List.take_zipWith, List.take_length]
  have keys : (xs.zip (m.down.take xs.length)).map (·.2) = m.down.take xs.length :=
    List.map_snd_zip (Nat.le_of_eq length)
  have registers : (xs.zip (m.down.take xs.length)).map (·.1) = xs :=
    List.map_fst_zip (Nat.le_of_eq length.symm)
  have whole : (xs.zip (m.down.take xs.length)).length = xs.length := by
    rw [List.length_zip, length, Nat.min_self]
  refine
    { length, succeeds
      ascending := m.pairwise_down.take
      pressed := fun k listed => mem_down.mp (List.mem_of_mem_take listed)
      lowest := ?lowest
      stored := ?stored
      keys := ?keys
      registers := ?registers
      rest := ?rest }
  case lowest =>
    intro k listed j pressed other
    have split := m.pairwise_down
    have member := mem_down.mpr pressed
    rw [← List.take_append_drop xs.length m.down] at split member
    obtain here | beyond := List.mem_append.mp member
    · exact absurd here other
    · exact (List.pairwise_append.mp split).2.2 k listed j beyond
  case stored =>
    intro i x k register key
    have within : i < xs.length := (List.getElem?_eq_some_iff.mp register).1
    rw [List.getElem?_take_of_lt within] at key
    have served : (xs.zip m.down)[i]? = some (x, k) :=
      List.getElem?_zip_eq_some.mpr ⟨register, key⟩
    rw [after (i + 1) within, List.take_add_one, served, servedAll, List.foldl_append]
    have small : k.toNat < 256 := Nat.lt_trans k.isLt (by decide)
    simp [Machine.served, Nat.mod_eq_of_lt small]
  case keys =>
    intro j
    rw [all, keys_servedAll, keys]
  case registers =>
    intro r other
    rw [all]
    exact v_servedAll m _ (by rwa [registers])
  case rest =>
    have shape := m.servedAll_eq (xs.zip (m.down.take xs.length))
    rw [whole] at shape
    rw [all]
    exact shape

end Machine

namespace Console

open Machine

variable {s : Setup} {pace : Pace} {c : Console} {x : Nibble}

/-- **A frame is spent on waiting.** -/
theorem frame_of_waits (waits : c.machine.Waits x) (clean : c.machine.dirty = false)
    (accepts : Bool) :
    c.frame s pace accepts =
      ⟨c.turnOver (c.machine.waited pace.instructions), c.frameEffects (c.framed s pace), none,
        .finished false⟩ := by
  have positive := pace.positive
  have ended : c.framed s pace = _ :=
    Running.steps_of_frameEnd (r := ⟨c.machine, [], none⟩) (waits.frameEnd s clean positive)
  have count : pace.instructions - 1 + 1 = pace.instructions := Nat.sub_add_cancel positive
  have machine : (c.framed s pace).machine = c.machine.waited pace.instructions := by
    rw [ended, count]
    exact waits.after s pace.instructions
  have fine : (c.framed s pace).fault? = none := by
    rw [ended]
    exact waits.succeeds s pace.instructions _ (Nat.sub_lt positive Nat.one_pos)
  obtain ⟨f, faulty, -⟩ | ⟨-, -, same⟩ | ⟨-, dirty, -⟩ | ⟨-, dirty, -⟩ :=
    frame_cases s pace accepts c
  · rw [fine] at faulty
    cases faulty
  · rw [machine] at same
    exact same
  all_goals
    rw [machine] at dirty
    exact absurd (dirty.symm.trans clean) (by decide)

/-- **Frames without a key** add to the two counters, count the timers down and leave the rest of the
machine. -/
theorem afterAll_of_waits (pace : Pace) (waits : c.machine.Waits x)
    (clean : c.machine.dirty = false) (accepts : List Bool) :
    let last := c.afterAll s pace (accepts.map .frame)
    last = { c with
        machine := { c.machine.waited (accepts.length * pace.instructions) with
          delay := last.machine.delay
          sound := last.machine.sound }
        speaker := last.speaker
        frames := c.frames + accepts.length } ∧
      ∀ timer, (last.machine.timer timer).toNat =
        (c.machine.timer timer).toNat - accepts.length := by
  induction accepts generalizing c with
  | nil =>
    rw [List.length_nil, Nat.zero_mul]
    exact ⟨rfl, fun timer => rfl⟩
  | cons accept accepts ih =>
    intro last
    have first : (c.operate s pace (.frame accept)).console =
        c.turnOver (c.machine.waited pace.instructions) :=
      congrArg FrameResult.console (frame_of_waits waits clean accept)
    have still : (c.turnOver (c.machine.waited pace.instructions)).machine.Waits x :=
      ⟨waits.running, waits.word, waits.up⟩
    obtain ⟨shape, timers⟩ := ih still clean
    have split : last =
        (c.turnOver (c.machine.waited pace.instructions)).afterAll s pace (accepts.map .frame) := by
      unfold last
      rw [List.map_cons, afterAll_cons, first]
    have counted : c.machine.waited ((accepts.length + 1) * pace.instructions) =
        (c.machine.waited pace.instructions).waited (accepts.length * pace.instructions) := by
      rw [waited_waited, Nat.succ_mul, Nat.add_comm]
    have frames : c.frames + (accepts.length + 1) = c.frames + 1 + accepts.length := by omega
    rw [List.length_cons, counted, frames, split]
    refine ⟨shape, fun timer => ?_⟩
    have ticked : (c.turnOver (c.machine.waited pace.instructions)).machine.timer timer =
        tick (c.machine.timer timer) := by
      cases timer <;> rfl
    rw [timers, ticked, toNat_tick]
    omega

/-- **A wait for a key goes on until a key is down, and ends with the lowest one.** Any number of
steps without a key adds to two counters and changes nothing else, and so does any number of frames
that starts with the mark down, apart from what frames do to the timers, the tone and their own
count. If keys go down after that, the next step takes the lowest of them: it is in the register, it
alone is up again, and the program counter stands behind the instruction, two further modulo 4096. A
chain of such instructions takes as many of the lowest keys in ascending order, if as many are
down. -/
theorem wait_ends_with_lowest (s : Setup) (pace : Pace) (c : Console) {x : Nibble}
    (waits : c.machine.Waits x) :
    let m := c.machine
    (∀ n, m.Succeeds s n ∧ m.after s n = m.waited n) ∧
      (m.dirty = false → ∀ accepts : List Bool,
        let last := c.afterAll s pace (accepts.map .frame)
        last = { c with
            machine := { m.waited (accepts.length * pace.instructions) with
              delay := last.machine.delay
              sound := last.machine.sound }
            speaker := last.speaker
            frames := c.frames + accepts.length } ∧
          ∀ timer, (last.machine.timer timer).toNat =
            (m.timer timer).toNat - accepts.length) ∧
      (∀ idle, ((∃ n, idle = m.after s n) ∨
          (m.dirty = false ∧
            ∃ accepts : List Bool, idle = (c.afterAll s pace (accepts.map .frame)).machine)) →
        ∀ pressed : List Nibble, ∀ k ∈ pressed, (∀ j ∈ pressed, k ≤ j) →
          let ready := idle.press pressed
          ready = { idle with keys := ready.keys } ∧
            (∀ j : Nibble, ready.keys[j] = true ↔ j ∈ pressed) ∧
            (ready.step s).fault? = none ∧
            (ready.step s).machine = { ready with
              v := m.v.set x (k.setWidth 8)
              keys := ready.keys.set k false
              pc := m.pc + 2
              counters := { ready.counters with
                instructions := ready.counters.instructions + 1 } }) ∧
      ∀ (ready : Machine) (xs : List Nibble), ready.Chain xs →
        xs.length ≤ Nibble.all.countP (ready.keys[·]) → ∃ taken, ready.Serves s xs taken := by
  intro m
  have waited n : m.Succeeds s n ∧ m.after s n = m.waited n :=
    ⟨waits.succeeds s n, waits.after s n⟩
  have frames (clean : m.dirty = false) (accepts : List Bool) :=
    afterAll_of_waits (s := s) pace waits clean accepts
  refine ⟨waited, frames, ?_, ?_⟩
  · intro idle reached pressed k listed least ready
    -- both kinds of waiting leave what the instruction looks at
    have same : idle.Waits x ∧ idle.v = m.v ∧ idle.pc = m.pc := by
      obtain ⟨n, rfl⟩ | ⟨clean, accepts, rfl⟩ := reached
      · rw [(waited n).2]
        exact ⟨waits.still n, rfl, rfl⟩
      · have shape := congrArg Console.machine (frames clean accepts).1
        rw [shape]
        exact ⟨⟨waits.running, waits.word, waits.up⟩, rfl, rfl⟩
    obtain ⟨still, v, pc⟩ := same
    have shape : ready = { idle with keys := ready.keys } := idle.press_eq pressed
    have keys (j : Nibble) : ready.keys[j] = true ↔ j ∈ pressed := by
      rw [keys_press, still.up j]
      simp
    have running : ready.crashed = false := by rw [shape]; exact still.running
    have word : ready.word = (Instruction.awaitKey x).encode := by rw [shape]; exact still.word
    have lowest : ready.lowestKey? = some k :=
      lowestKey?_of_least ((keys k).mpr listed) fun j down => least j ((keys j).mp down)
    have readyV : ready.v = m.v := by rw [shape]; exact v
    have readyPc : ready.pc = m.pc := by rw [shape]; exact pc
    rw [step_served s running word lowest, served, readyV, readyPc]
    exact ⟨shape, keys, rfl, rfl⟩
  · intro ready xs chain enough
    have counted : Nibble.all.countP (ready.keys[·]) = ready.down.length :=
      List.countP_eq_length_filter
    rw [counted] at enough
    exact ⟨_, chain.serves s enough⟩

/-- A console that waits for keys from the last byte of memory on, first for one that goes to
register 3 and then for one that goes to register 4. -/
def dozing : Console where
  machine := { Machine.empty with
    memory := (Table.fill 0).write 0xFFF [0xF3, 0x0A, 0xF4, 0x0A]
    pc := 0xFFF
    delay := 2 }
  speaker := .silent {}

theorem waits_dozing : dozing.machine.Waits 3 where
  running := rfl
  word := by decide +kernel
  up := by decide

/-- The machine of the console after three keys went down. -/
def roused : Machine :=
  dozing.machine.press [9, 4, 7]

theorem chain_roused : roused.Chain [3, 4] where
  running := rfl
  words := by
    intro i x listed
    match i, listed with
    | 0, listed =>
      cases listed
      decide +kernel
    | 1, listed =>
      cases listed
      decide +kernel

theorem wait_ends_with_lowest_dozing :
    dozing.machine.Waits 3 ∧ dozing.machine.dirty = false ∧
      dozing.machine.after {} 5 = dozing.machine.waited 5 ∧
      (dozing.afterAll {} .standard ([true, true, true].map .frame)).frames = 3 ∧
      (dozing.afterAll {} .standard ([true, true, true].map .frame)).machine.timer .delay = 0 ∧
      (roused.step {}).machine.pc = 1 ∧
      (roused.step {}).machine.v[(3 : Nibble)] = 4 ∧
      roused.Chain [3, 4] ∧ ∃ taken, roused.Serves {} [3, 4] taken := by
  obtain ⟨waited, frames, next, chains⟩ :=
    wait_ends_with_lowest {} .standard dozing waits_dozing
  obtain ⟨shape, timers⟩ := frames rfl [true, true, true]
  have expired := BitVec.eq_of_toNat_eq (y := 0) (timers .delay)
  obtain ⟨-, -, -, taken⟩ := next dozing.machine (.inl ⟨0, rfl⟩) [9, 4, 7] 4 (by decide) (by decide)
  have step : (roused.step {}).machine = _ := taken
  refine ⟨waits_dozing, rfl, (waited 5).2, congrArg Console.frames shape, expired, ?_, ?_,
    chain_roused, chains roused [3, 4] chain_roused (by decide +kernel)⟩
  · rw [step]
    rfl
  · rw [step]
    exact Table.getElem_set_self _ _ _

end Console

end Cosmac
