import Cosmac.Proofs.Lasting
import Cosmac.Proofs.Plain.Instructions

/-!
# No run leaves the bounds

A console and a plain machine that start from the same program stay together through everything
that can be done with them, faults included: `Plain.run_ofMachine`. On the side of the plain machine
every access on the way was checked, and on the side of the console every part is bounded by its
type, so that nothing ever leaves its bounds and nothing but a fault can go wrong.

The depth of the stack is the one bound that no type carries. It lasts, because a call is refused
when the stack is full.
-/

namespace Cosmac

open Checked Console

namespace Machine

/-- The depth of the stack stays within bounds: a call on a full stack is refused. -/
theorem depth_lasting (s : Setup) : Lasting s fun m => m.sp ≤ stackSize where
  stop := id
  advance := id
  perform := by
    intro m i next room performed
    obtain ⟨_, -, free, up, -⟩ | ⟨-, down, -, -⟩ | ⟨-, -, level, -⟩ := perform_stack performed
    · rw [up]
      exact free
    · omega
    · rw [level]
      exact room
  count := id
  setKey := fun _ _ => id
  setDelay := fun _ => id
  setSound := fun _ => id
  tickTimers := id
  markShown := id

/-- A machine starts with an empty stack. -/
theorem depth_of_boot {program : Program} {m : Machine} {size : Nat}
    (booted : boot program = .ok (m, size)) : m.sp = 0 := by
  obtain ⟨memory, rfl⟩ := exists_memory_of_boot booted
  rfl

end Machine

namespace Plain

variable (s : Setup) {m : Machine}

/-- The plain image of a machine is in range; only the depth of the stack has to be supposed. -/
theorem inRange_ofMachine (room : m.sp ≤ Machine.stackSize) :
    (ofMachine m).InRange where
  memory := ⟨Table.size_image .., Table.forall_mem_image fun k => (m.memory[k]).isLt⟩
  display := ⟨Table.size_image .., Table.forall_mem_image fun _ => Table.size_image ..⟩
  v := ⟨Table.size_image .., Table.forall_mem_image fun x => (m.v[x]).isLt⟩
  i := m.i.isLt
  pc := m.pc.isLt
  sp := room
  stack := ⟨Table.size_image .., Table.forall_mem_image fun k => (m.stack[k]).isLt⟩
  delay := m.delay.isLt
  sound := m.sound.isLt
  keys := Table.size_image ..

/-- A word comes to the same on the plain side: what is carried out and what refused. -/
theorem outcome_ofMachine (room : m.sp ≤ Machine.stackSize) (w : Word) :
    (ofMachine m).outcome s w = .ok ((m.carryOut s w).view ofMachine) := by
  rw [outcome, Machine.carryOut_eq]
  cases Instruction.decode? w with
  | some i => exact perform_ofMachine s m i room
  | none =>
    have probed : (ofMachine m).probe w = .ok () := by
      unfold probe
      split
      · rw [keyDown_ofMachine]
        rfl
      · rfl
    simp only
    rw [probed, bind_ok, site_ofMachine]
    rfl

/-- What a plain machine keeps of a reply. -/
def Reply.ofMachine (r : Machine.Reply) : Reply :=
  ⟨Plain.ofMachine r.machine, r.fault?⟩

/-- Executing any integer as a word comes to the same on the plain side. -/
theorem execute_ofMachine (room : m.sp ≤ Machine.stackSize) (w : Int) :
    (ofMachine m).execute s w = .ok (.ofMachine (m.execute s (BitVec.ofInt 16 w))) := by
  rw [execute, outcome_ofMachine s room, bind_ok, Machine.execute]
  cases m.carryOut s (BitVec.ofInt 16 w) <;> rfl

/-- Both sides read the same word, with both accesses in range. -/
theorem word_ofMachine : (ofMachine m).word = .ok m.word.toNat := by
  have high : load (ofMachine m).memory (ofMachine m).pc = .ok m.memory[m.pc].toNat :=
    Table.load_image _ m.memory m.pc
  have wrapped : ((ofMachine m).pc + 1) % 4096 = (m.pc + 1).toNat :=
    (BitVec.toNat_add m.pc 1).symm
  have low : load (ofMachine m).memory (((ofMachine m).pc + 1) % 4096 : Nat) =
      .ok m.memory[m.pc + 1].toNat := by
    rw [wrapped]
    exact Table.load_image _ m.memory (m.pc + 1)
  rw [word, high, bind_ok, low, bind_ok, Machine.word, BitVec.toNat_append]

/-- Both program counters move on alike. -/
theorem advance_ofMachine : (ofMachine m).advance = ofMachine m.advance := by
  have moved : ((ofMachine m).pc + 2) % 4096 = (m.pc + Machine.instructionSize).toNat :=
    (BitVec.toNat_add m.pc Machine.instructionSize).symm
  rw [advance, moved]
  rfl

/-- A step comes to the same on the plain side, faults included. -/
theorem step_ofMachine (room : m.sp ≤ Machine.stackSize) :
    (ofMachine m).step s = .ok (.ofMachine (m.step s)) := by
  unfold step
  show (if m.crashed then _ else _) = _
  cases crashed : m.crashed with
  | true =>
    rw [Machine.step_of_crashed crashed]
    rfl
  | false =>
    have read : BitVec.ofInt 16 (m.word.toNat : Int) = m.word := by
      rw [BitVec.ofInt_natCast, BitVec.ofNat_toNat, BitVec.setWidth_eq]
    have carried := execute_ofMachine s (m := m.advance) room m.word.toNat
    rw [read] at carried
    rw [Machine.step_of_running crashed, if_neg Bool.false_ne_true, word_ofMachine, bind_ok,
      advance_ofMachine, carried, bind_ok, Machine.Reply.ofStep, Reply.ofMachine]
    cases (m.advance.execute s m.word).fault? <;> rfl

/-! ## Frames and operations -/

/-- The steps of a frame come to the same on the plain side, up to the first fault. -/
theorem steps_ofMachine (n : Nat) {r : Running} (room : r.machine.sp ≤ Machine.stackSize)
    (running : r.fault? = none) :
    (ofMachine r.machine).steps s n =
      .ok ⟨ofMachine (r.steps s n).machine, (r.steps s n).fault?⟩ := by
  induction n generalizing r with
  | zero =>
    rw [steps, Running.steps, running]
  | succ n ih =>
    have deep : (r.step s).machine.sp ≤ Machine.stackSize :=
      (Machine.depth_lasting s).of_step room
    rw [steps, step_ofMachine s room, bind_ok, Running.steps]
    show (if (r.step s).isOver s then _ else _) = _
    split
    · rfl
    case isFalse going =>
      -- a step that met a fault would have ended the run
      have none : (r.step s).fault? = none := by
        simp only [Running.isOver, Bool.or_eq_true, not_or, Option.isSome_iff_ne_none] at going
        simpa using going.1
      exact ih deep none

/-- Both sides count their timers down alike. -/
theorem tickTimers_ofMachine : (ofMachine m).tickTimers = ofMachine m.tickTimers := by
  have ticked (b : Byte) : b.toNat - 1 = (Machine.tick b).toNat := by
    unfold Machine.tick
    split
    case isTrue h => rw [h]; rfl
    case isFalse h =>
      have : b.toNat ≠ 0 := fun zero => h (BitVec.eq_of_toNat_eq zero)
      have := b.isLt
      simp only [BitVec.toNat_sub, BitVec.reduceToNat]
      omega
  rw [tickTimers]
  show { ofMachine m with delay := m.delay.toNat - 1, sound := m.sound.toNat - 1 } = _
  rw [ticked, ticked]
  rfl

/-- A frame comes to the same on the plain side, whether or not the screen takes the picture. -/
theorem frame_ofMachine (pace : Pace) (accepts : Bool) {c : Console}
    (room : c.machine.sp ≤ Machine.stackSize) :
    (ofMachine c.machine).frame s pace accepts =
      .ok (ofMachine (c.frame s pace accepts).console.machine) := by
  have stepped := steps_ofMachine s pace.instructions (r := ⟨c.machine, [], none⟩) room rfl
  rw [frame, stepped, bind_ok, Console.frame]
  generalize Running.steps s ⟨c.machine, [], none⟩ pace.instructions = run
  cases run.fault? with
  | some f => rfl
  | none =>
    simp only [tickTimers_ofMachine]
    show Except.ok (if run.machine.dirty && accepts then _ else _) = .ok (ofMachine (
      if !run.machine.dirty then _ else if !accepts then _ else _ : FrameResult).console.machine)
    cases run.machine.dirty <;> cases accepts <;> rfl

/-- What an operation is to a console, which has no key for a number out of range. -/
def Operation.onConsole? : Operation → Option Console.Operation
  | .step => some .step
  | .execute w => some (.execute (BitVec.ofInt 16 w))
  | .setKey k down => (Machine.key? k).map fun k => .setKey k down
  | .setDelay n => some (.setDelay n)
  | .setSound n => some (.setSound n)
  | .tickTimers => some .tickTimers
  | .markShown => some .markShown
  | .frame accepts => some (.frame accepts)

/-- A key of any number comes to the same: it is struck on the pad, or nothing happens. -/
theorem setKey_ofMachine (k : Int) (down : Bool) :
    (ofMachine m).setKey k down =
      .ok (ofMachine (((Machine.key? k).map (m.setKey · down)).getD m)) := by
  unfold setKey Machine.key?
  split
  case isTrue key =>
    have number : ((BitVec.ofInt 4 k).toNat : Int) = k := by
      rw [BitVec.toNat_ofInt]
      omega
    have held := Table.put_image (fun down => down) m.keys (BitVec.ofInt 4 k) down
    rw [number] at held
    show (put (m.keys.image fun down => down) k down >>= _) = _
    rw [held]
    rfl
  case isFalse => rfl

/-- Every operation comes to the same on the plain side. -/
theorem operate_ofMachine (pace : Pace) {c : Console} (room : c.machine.sp ≤ Machine.stackSize)
    (op : Operation) :
    (ofMachine c.machine).operate s pace op =
      .ok (ofMachine (c.afterAll s pace op.onConsole?.toList).machine) := by
  have wrapped (n : Int) : (n % 256).toNat = (BitVec.ofInt 8 n).toNat := by
    simp
  cases op with
  | step =>
    rw [operate, step_ofMachine s room]
    rfl
  | execute w =>
    rw [operate, execute_ofMachine s room]
    rfl
  | setKey k down =>
    rw [operate, setKey_ofMachine, Operation.onConsole?]
    cases Machine.key? k <;> rfl
  | setDelay n =>
    rw [operate, wrapped]
    rfl
  | setSound n =>
    rw [operate, wrapped]
    rfl
  | tickTimers =>
    rw [operate, tickTimers_ofMachine]
    rfl
  | markShown => rfl
  | frame accepts => exact frame_ofMachine s pace accepts room

/-- Operations one after another come to the same on the plain side, and none of them leaves the
bounds. -/
theorem run_ofMachine (pace : Pace) (ops : List Operation) {c : Console}
    (room : c.machine.sp ≤ Machine.stackSize) :
    (ofMachine c.machine).run s pace ops =
      .ok (ofMachine (c.afterAll s pace (ops.filterMap Operation.onConsole?)).machine) := by
  induction ops generalizing c with
  | nil => rfl
  | cons op ops ih =>
    have deep := (Machine.depth_lasting s).of_afterAll pace op.onConsole?.toList room
    rw [run, operate_ofMachine s pace room, bind_ok, ih deep]
    cases h : op.onConsole? <;> rw [List.filterMap_cons, h] <;> rfl

/-- **No run leaves the bounds.** Whatever the program, the dialect and the random bytes, and
whatever is done to the machine in whatever order, each access to an array has succeeded, every part
is within its bounds, and the next step or word, any number, can fail with nothing but a fault. -/
theorem run_in_range (s : Setup) (pace : Pace) {program : Program} {m : Machine} {size : Nat}
    (booted : Machine.boot program = .ok (m, size)) (speaker : Speaker) (ops : List Operation) :
    let last := (Console.mk m speaker 0 0).afterAll s pace (ops.filterMap Operation.onConsole?)
    let p := ofMachine last.machine
    (ofMachine m).run s pace ops = .ok p ∧ p.InRange ∧
      p.step s = .ok (.ofMachine (last.machine.step s)) ∧
      ∀ w : Int, p.execute s w = .ok (.ofMachine (last.machine.execute s (BitVec.ofInt 16 w))) := by
  intro last p
  have start : m.sp ≤ Machine.stackSize := by
    rw [Machine.depth_of_boot booted]
    exact Nat.zero_le _
  have room : last.machine.sp ≤ Machine.stackSize :=
    (Machine.depth_lasting s).of_afterAll pace _ start
  exact ⟨run_ofMachine s pace ops (c := ⟨m, speaker, 0, 0⟩) start, inRange_ofMachine room,
    step_ofMachine s room, execute_ofMachine s room⟩

theorem run_in_range_clear :
    ∃ m p, Machine.boot (.bytes [0x00, 0xE0]) = .ok (m, 2) ∧
      (ofMachine m).run {} .standard
        [.step, .execute (-1), .setKey 16 true, .setDelay 300, .step, .frame true] = .ok p ∧
      p.InRange := by
  have booted : Machine.boot (.bytes [0x00, 0xE0]) = .ok (_, 2) := rfl
  obtain ⟨ran, inRange, -⟩ := run_in_range {} .standard booted (.silent {})
    [.step, .execute (-1), .setKey 16 true, .setDelay 300, .step, .frame true]
  exact ⟨_, _, booted, ran, inRange⟩

end Plain

end Cosmac
