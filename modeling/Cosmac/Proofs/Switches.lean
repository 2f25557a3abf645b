import Cosmac.Machine.Program
import Cosmac.Proofs.Deeds
import Cosmac.Proofs.Recognition

/-!
# What a switch can change

Each point on which dialects differ concerns a few instructions. `switch?` says which one, if any,
an instruction depends on in a state of the machine: a shift only if it names two registers, and a
draw only if its sprite reaches past an edge. Two dialects that agree on that switch carry out the
instruction alike (`perform_congr`). So a run goes the same way in both as long as its deeds depend
on no switch on which they differ.

No instruction depends on whether frames wait for the display, but frames do: they end early when
the display changes. Where dialects differ on this, frames are the same as long as no deed touches
the display.
-/

namespace Cosmac

/-- The same setup in another dialect. -/
def Setup.inDialect (s : Setup) (d : Dialect) : Setup :=
  { s with dialect := d }

namespace Sprite

variable {origin : Cell} {edge : Edge}

/-- A place inside the display is the same under both rules for its edge. -/
theorem place?_of_inside {dr dc : Nat} (low : origin.row.toNat + dr < 32)
    (narrow : origin.col.toNat + dc < 64) :
    place? edge origin dr dc =
      some ⟨origin.row + BitVec.ofNat 5 dr, origin.col + BitVec.ofNat 6 dc⟩ := by
  rw [place?, if_neg]
  rintro ⟨-, past⟩
  simp only [Display.height, Display.width] at past
  omega

/-- A sprite inside the display falls on the same cells, whatever becomes of parts past an edge. -/
theorem cells_of_inside {rows : List Byte} (low : origin.row.toNat + rows.length ≤ 32)
    (narrow : origin.col.toNat + 8 ≤ 64) :
    cells edge origin rows = cells .wrap origin rows := by
  apply List.flatMap_congr
  rintro ⟨bits, dr⟩ numbered
  have within : dr < rows.length := by
    simpa using (List.mem_zipIdx numbered).2.1
  apply List.filterMap_congr
  intro dc listed
  have column : dc < 8 := List.mem_range.mp listed
  rw [place?_of_inside (by omega) (by omega), place?_of_inside (by omega) (by omega)]

/-- Where all rows are inside, all are drawn. -/
theorem rowCount_of_inside {n : Nat} (low : origin.row.toNat + n ≤ 32) :
    rowCount edge origin n = n := by
  cases edge with
  | wrap => rfl
  | clip =>
    rw [rowCount, Display.height]
    omega

end Sprite

/-- The switch that an operation on two registers depends on. -/
def Arith.switch? (op : Arith) (x y : Nibble) : Option Switch :=
  match op with
  | .or | .and | .xor => some .vfReset
  | .shiftRight | .shiftLeft => if x = y then none else some .shifting
  | _ => none

/-- Arithmetic looks at its own switch only. -/
theorem Arith.apply_congr {d e : Dialect} {op : Arith} {x y : Nibble}
    (agree : ∀ k ∈ op.switch? x y, d.get k = e.get k) (v : Table 4 Byte) :
    op.apply d x y v = op.apply e x y v := by
  cases op with
  | or | and | xor =>
    have reset : d.vfReset = e.vfReset := agree .vfReset rfl
    simp only [apply, reset]
  | shiftRight | shiftLeft =>
    by_cases same : x = y
    · subst same
      simp only [apply, ite_self]
    · have source : d.shifting = e.shifting := agree .shifting (by simp [switch?, same])
      simp only [apply, source]
  | _ => rfl

namespace Machine

/-- The sprite of a draw reaches past an edge of the display. -/
def Overhangs (m : Machine) (x y n : Nibble) : Prop :=
  64 < m.v[x].toNat % 64 + 8 ∨ 32 < m.v[y].toNat % 32 + n.toNat

instance (m : Machine) (x y n : Nibble) : Decidable (m.Overhangs x y n) :=
  inferInstanceAs (Decidable (_ ∨ _))

/-- The switch that an instruction depends on in a state of the machine. -/
def switch? (m : Machine) : Instruction → Option Switch
  | .arith op x y => op.switch? x y
  | .jumpOffset _ => some .jumping
  | .draw x y n => if m.Overhangs x y n then some .clipping else none
  | .store _ | .fetch _ => some .memory
  | _ => none

variable {s t : Setup} {m : Machine} {d e : Dialect} {i : Instruction}

/-- A sprite that does not overhang is drawn alike in all dialects. -/
theorem drawSprite_of_inside {x y n : Nibble} (inside : ¬ m.Overhangs x y n) :
    m.drawSprite d x y n = m.drawSprite e x y n := by
  have low : (m.corner x y).row.toNat + n.toNat ≤ 32 := by
    simp only [Overhangs] at inside
    simp only [corner, BitVec.toNat_setWidth]
    omega
  have narrow : (m.corner x y).col.toNat + 8 ≤ 64 := by
    simp only [Overhangs] at inside
    simp only [corner, BitVec.toNat_setWidth]
    omega
  have rows (f : Dialect) : Sprite.rowCount (edge f) (m.corner x y) n.toNat = n.toNat :=
    Sprite.rowCount_of_inside low
  have cells (f : Dialect) : m.spriteCells f x y n =
      Sprite.cells .wrap (m.corner x y) (m.memory.read m.i n.toNat) := by
    rw [spriteCells, rows]
    exact Sprite.cells_of_inside (by rwa [Table.length_read]) narrow
  have opened (f : Dialect) : m.drawSprite f x y n =
      let plotted := m.display.plot (m.spriteCells f x y n)
      { m with
        display := plotted.display
        v := m.v.set flag (if 0 < plotted.hits then 1 else 0)
        dirty := m.dirty || !(m.spriteCells f x y n).isEmpty
        counters := { m.counters with
          reads := m.counters.reads + Sprite.rowCount (edge f) (m.corner x y) n.toNat
          collisions := m.counters.collisions + plotted.hits
          draws := m.counters.draws + 1 } } := rfl
  rw [opened d, opened e, cells d, cells e, rows d, rows e]

/-- **Setups that agree on the switch of an instruction carry it out alike.** -/
theorem perform_congr (random : s.random = t.random)
    (agree : ∀ k ∈ m.switch? i, s.dialect.get k = t.dialect.get k) :
    m.perform s i = m.perform t i := by
  cases i with
  | arith op x y =>
    have same : op.apply s.dialect x y m.v = op.apply t.dialect x y m.v :=
      Arith.apply_congr agree m.v
    simp only [perform, same]
  | jumpOffset nnn =>
    have same : s.dialect.jumping = t.dialect.jumping := agree .jumping rfl
    simp only [perform, same]
  | random x kk => simp only [perform, random]
  | draw x y n =>
    have same : m.drawSprite s.dialect x y n = m.drawSprite t.dialect x y n := by
      by_cases past : m.Overhangs x y n
      · have clipping : s.dialect.clipping = t.dialect.clipping :=
          agree .clipping (by simp [switch?, past])
        simp only [drawSprite, clipping]
      · exact drawSprite_of_inside past
    simp only [perform, same]
  | store x | fetch x =>
    have same : s.dialect.memory = t.dialect.memory := agree .memory rfl
    simp only [perform, indexAfter, same]
  | _ => rfl

/-- What is refused depends on no switch. -/
theorem switch?_of_error {r : Refusal Machine} (refused : m.perform s i = .error r) :
    m.switch? i = none := by
  obtain ⟨nnn, rfl, -⟩ | ⟨rfl, -⟩ := perform_eq_error_iff.mp refused <;> rfl

/-- Which switch an instruction looks at does not depend on the program counter. -/
theorem switch?_advance (m : Machine) (i : Instruction) : m.advance.switch? i = m.switch? i := by
  cases i <;> rfl

/-- Two dialects agree on the switch that a deed depends on. -/
def Deed.AgreesIn (d e : Dialect) (deed : Deed) : Prop :=
  ∀ k ∈ deed.machine.switch? deed.instruction, d.get k = e.get k

instance (d e : Dialect) (deed : Deed) : Decidable (deed.AgreesIn d e) :=
  inferInstanceAs (Decidable (∀ k ∈ deed.machine.switch? deed.instruction, d.get k = e.get k))

/-- A word is carried out alike in dialects that agree on the switch it looks at. -/
theorem execute_congr {w : Word} (agree : ∀ i, Instruction.decode? w = some i →
      (m.execute s w).fault? = none → ∀ k ∈ m.switch? i, s.dialect.get k = d.get k) :
    m.execute (s.inDialect d) w = m.execute s w := by
  simp only [execute_eq] at agree ⊢
  cases decoded : Instruction.decode? w with
  | none => rfl
  | some i =>
    have same : m.perform s i = m.perform (s.inDialect d) i := by
      refine perform_congr rfl ?_
      cases performed : m.perform s i with
      | error r =>
        rw [switch?_of_error performed]
        exact nofun
      | ok next => exact agree i decoded (by simp only [decoded, performed])
    simp only [same]

/-- A word is carried out alike in two dialects that agree on its deed, if it has one. -/
theorem execute_inDialect {w : Word}
    (agree : ∀ deed ∈ m.deedOf? s w, deed.AgreesIn s.dialect d) :
    m.execute (s.inDialect d) w = m.execute s w := by
  refine execute_congr fun i decoded fine => agree ⟨m, i⟩ ?_
  rw [deedOf?, fine, decoded]
  rfl

/-- A step goes alike in two dialects that agree on its deed, if it has one. -/
theorem step_inDialect (agree : ∀ deed ∈ m.deed? s, deed.AgreesIn s.dialect d) :
    m.step (s.inDialect d) = m.step s := by
  refine step_congr rfl fun running => ?_
  refine execute_congr fun i decoded fine k listed => agree ⟨m, i⟩ ?_ k ?_
  · rw [deed?, upcoming?, fault?_step_of_running running, fine, decoded]
    rfl
  · rwa [switch?_advance] at listed

/-- **A run of steps goes alike in two dialects** that agree on its deeds. -/
theorem after_inDialect {n : Nat}
    (agree : ∀ j < n, ∀ deed ∈ (m.after s j).deed? s, deed.AgreesIn s.dialect d) :
    m.after (s.inDialect d) n = m.after s n := by
  induction n with
  | zero => rfl
  | succ n ih =>
    have before := ih fun j earlier => agree j (Nat.lt_succ_of_lt earlier)
    rw [after, after, before, step_inDialect (agree n (Nat.lt_succ_self n))]

end Machine

namespace Console

open Machine

variable {s : Setup} {pace : Pace} {c : Console} {d : Dialect}

/-- Two dialects run the same frames: both or none of them wait for the display, or the mark is down
and no deed touches the display. -/
def WaitsAlike (s : Setup) (d : Dialect) (m : Machine) (deeds : List Deed) : Prop :=
  s.dialect.displayWait = d.displayWait ∨
    (m.dirty = false ∧ ∀ deed ∈ deeds, deed.touches s.dialect = false)

/-- The steps of a frame are alike in dialects that agree on their deeds and wait alike. -/
theorem Running.steps_inDialect (n : Nat) {r : Running}
    (agree : ∀ deed ∈ r.deeds s n, deed.AgreesIn s.dialect d)
    (wait : WaitsAlike s d r.machine (r.deeds s n)) :
    r.steps (s.inDialect d) n = r.steps s n := by
  induction n generalizing r with
  | zero => rfl
  | succ n ih =>
    have same : r.step (s.inDialect d) = r.step s := by
      simp only [Running.step, step_inDialect (first_of_deeds agree)]
    have still (clean : r.machine.dirty = false)
        (untouched : ∀ deed ∈ r.deeds s (n + 1), deed.touches s.dialect = false) :
        (r.step s).machine.dirty = false :=
      (step_dirty_of_deed (first_of_deeds untouched)).trans clean
    have stop : (r.step s).isOver (s.inDialect d) = (r.step s).isOver s := by
      obtain both | ⟨clean, untouched⟩ := wait
      · simp only [Running.isOver, Setup.inDialect, both]
      · simp only [Running.isOver, still clean untouched, Bool.and_false]
    rw [Running.steps, Running.steps, same, stop]
    split
    case isTrue => rfl
    case isFalse going =>
      refine ih (rest_of_deeds agree going) (wait.imp_right ?_)
      rintro ⟨clean, untouched⟩
      exact ⟨still clean untouched, rest_of_deeds untouched going⟩

/-- A frame is alike in dialects that agree on its deeds and wait alike. -/
theorem frame_inDialect (accepts : Bool)
    (agree : ∀ deed ∈ c.frameDeeds s pace, deed.AgreesIn s.dialect d)
    (wait : WaitsAlike s d c.machine (c.frameDeeds s pace)) :
    c.frame (s.inDialect d) pace accepts = c.frame s pace accepts := by
  have same := Running.steps_inDialect pace.instructions agree wait
  simp only [frame, same]

/-- **An operation comes to the same in two dialects** that agree on its deeds. -/
theorem operate_inDialect {op : Operation}
    (agree : ∀ deed ∈ c.deedsOf s pace op, deed.AgreesIn s.dialect d)
    (wait : WaitsAlike s d c.machine (c.deedsOf s pace op)) :
    c.operate (s.inDialect d) pace op = c.operate s pace op := by
  cases op with
  | step =>
    have same : c.machine.step (s.inDialect d) = c.machine.step s :=
      step_inDialect fun deed done => agree deed (Option.mem_toList.mpr done)
    simp only [operate, same]
  | execute w =>
    have same : c.machine.execute (s.inDialect d) w = c.machine.execute s w :=
      execute_inDialect fun deed done => agree deed (Option.mem_toList.mpr done)
    simp only [operate, same]
  | frame accepts => exact frame_inDialect accepts agree wait
  | _ => rfl

/-- The mark stays down as long as no deed touches the display. -/
theorem clean_operate {op : Operation} (clean : c.machine.dirty = false)
    (untouched : ∀ deed ∈ c.deedsOf s pace op, deed.touches s.dialect = false) :
    (c.operate s pace op).console.machine.dirty = false := by
  cases op with
  | step =>
    have same : (c.machine.step s).machine.dirty = c.machine.dirty :=
      step_dirty_of_deed fun deed done => untouched deed (Option.mem_toList.mpr done)
    exact same.trans clean
  | execute w =>
    have same : (c.machine.execute s w).machine.dirty = c.machine.dirty :=
      execute_dirty_of_deed fun deed done => untouched deed (Option.mem_toList.mpr done)
    exact same.trans clean
  | frame accepts =>
    have ran : (c.framed s pace).machine.dirty = false :=
      (view_framed Machine.dirty (fun _ => step_dirty_of_deed) untouched).trans clean
    obtain ⟨f, -, same⟩ | ⟨-, -, same⟩ | ⟨-, -, -, same⟩ | ⟨-, -, -, same⟩ :=
      frame_cases s pace accepts c
    · rw [operate, same]
      exact ran
    · rw [operate, same]
      exact ran
    · rw [operate, same]
      exact ran
    · rw [operate, same]
      rfl
  | markShown => rfl
  | _ => exact clean

/-- Without a deed that touches the display the mark stays down. -/
theorem clean_afterAll {ops : List Operation} (clean : c.machine.dirty = false)
    (untouched : ∀ deed ∈ c.deeds s pace ops, deed.touches s.dialect = false) :
    (c.afterAll s pace ops).machine.dirty = false := by
  induction ops generalizing c with
  | nil => exact clean
  | cons op ops ih =>
    obtain ⟨first, rest⟩ := forall_deeds_cons.mp untouched
    exact ih (clean_operate clean first) rest

/-- Two dialects run the frames of some operations alike if they do so for the first of them, and
for the others after it. -/
theorem WaitsAlike.split (first : List Operation) {last : List Operation}
    (wait : WaitsAlike s d c.machine (c.deeds s pace (first ++ last))) :
    WaitsAlike s d c.machine (c.deeds s pace first) ∧
      WaitsAlike s d (c.afterAll s pace first).machine
        ((c.afterAll s pace first).deeds s pace last) := by
  obtain both | ⟨clean, untouched⟩ := wait
  · exact ⟨.inl both, .inl both⟩
  · obtain ⟨before, behind⟩ := forall_deeds_append.mp untouched
    exact ⟨.inr ⟨clean, before⟩, .inr ⟨clean_afterAll clean before, behind⟩⟩

theorem deeds_singleton (s : Setup) (pace : Pace) (c : Console) (op : Operation) :
    c.deeds s pace [op] = c.deedsOf s pace op :=
  List.append_nil _

/-- Operations come to the same in dialects that agree on their deeds and wait alike. -/
theorem afterAll_inDialect {ops : List Operation}
    (agree : ∀ deed ∈ c.deeds s pace ops, deed.AgreesIn s.dialect d)
    (wait : WaitsAlike s d c.machine (c.deeds s pace ops)) :
    c.afterAll (s.inDialect d) pace ops = c.afterAll s pace ops := by
  induction ops generalizing c with
  | nil => rfl
  | cons op ops ih =>
    obtain ⟨first, rest⟩ := forall_deeds_cons.mp agree
    obtain ⟨now, later⟩ := WaitsAlike.split [op] wait
    rw [deeds_singleton] at now
    have same := operate_inDialect first now
    show (c.operate (s.inDialect d) pace op).console.afterAll (s.inDialect d) pace ops = _
    rw [same]
    exact ih rest later

/-- **Dialects differ only where a deed depends on a switch.** Steps go alike in two dialects, with
all that they report and the faults that they meet, as long as none of the instructions that are
carried out in the first dialect depends on a switch on which the two differ. The same holds of
operations of all kinds, in any order. For frames the two also have to agree on whether frames wait
for the display; or else the mark has to be down at first, and none of the instructions may touch
the display. -/
theorem alike_in_dialects (s : Setup) (d : Dialect) :
    let t := s.inDialect d
    (∀ (m : Machine) (n : Nat),
        (∀ j < n, ∀ deed ∈ (m.after s j).deed? s, deed.AgreesIn s.dialect d) →
          ∀ j < n, (m.after t j).step t = (m.after s j).step s ∧
            m.after t (j + 1) = m.after s (j + 1)) ∧
      ∀ (pace : Pace) (c : Console) (ops : List Operation),
        (∀ deed ∈ c.deeds s pace ops, deed.AgreesIn s.dialect d) →
        (s.dialect.displayWait = d.displayWait ∨
          c.machine.dirty = false ∧ ∀ deed ∈ c.deeds s pace ops, deed.touches s.dialect = false) →
        ∀ first op last, ops = first ++ op :: last →
          c.afterAll t pace first = c.afterAll s pace first ∧
            (c.afterAll t pace first).operate t pace op =
              (c.afterAll s pace first).operate s pace op := by
  intro t
  constructor
  · intro m n agree j within
    have before : m.after t j = m.after s j :=
      after_inDialect fun i earlier => agree i (Nat.lt_trans earlier within)
    have stepped : (m.after t j).step t = (m.after s j).step s := by
      rw [before]
      exact step_inDialect (agree j within)
    exact ⟨stepped, congrArg Reply.machine stepped⟩
  · rintro pace c ops agree wait first op last rfl
    obtain ⟨agreeFirst, agreeRest⟩ := forall_deeds_append.mp agree
    obtain ⟨waitFirst, waitRest⟩ := WaitsAlike.split first wait
    obtain ⟨agreeOp, -⟩ := forall_deeds_cons.mp agreeRest
    obtain ⟨waitOp, -⟩ := WaitsAlike.split [op] waitRest
    rw [deeds_singleton] at waitOp
    have before : c.afterAll t pace first = c.afterAll s pace first :=
      afterAll_inDialect agreeFirst waitFirst
    refine ⟨before, ?_⟩
    rw [before]
    exact operate_inDialect agreeOp waitOp

/-- The dialect with every switch on. -/
def everySwitch : Dialect :=
  .ofFn fun _ => true

/-- A console that shifts a register in place, draws a digit inside the display and goes back to the
start. -/
def neutral : Console where
  machine := { Machine.empty with
    memory := (Machine.empty.memory.write 0 font).write programStart
      [0x80, 0x06, 0xD0, 0x05, 0x12, 0x00] }
  speaker := .silent {}

/-- A console that shifts a register in place and goes back to the start. -/
def invisible : Console where
  machine := { Machine.empty with
    memory := Machine.empty.memory.write programStart [0x80, 0x06, 0x12, 0x00] }
  speaker := .silent {}

/-- A key goes down between two frames. -/
def frameKeyFrame : List Operation :=
  [.frame true, .setKey 3 true, .frame true]

theorem alike_in_dialects_neutral :
    let s : Setup := {}
    let t := s.inDialect everySwitch
    (∀ j < 3, ∀ deed ∈ (neutral.machine.after s j).deed? s, deed.AgreesIn s.dialect everySwitch) ∧
      neutral.machine.after t 3 = neutral.machine.after s 3 ∧
      (neutral.machine.after s 3).dirty = true ∧
      (∀ deed ∈ invisible.deeds s ⟨3, by decide⟩ frameKeyFrame,
        deed.AgreesIn s.dialect everySwitch) ∧
      (∀ deed ∈ invisible.deeds s ⟨3, by decide⟩ frameKeyFrame,
        deed.touches s.dialect = false) ∧
      s.dialect.displayWait ≠ everySwitch.displayWait ∧
      (invisible.afterAll t ⟨3, by decide⟩ [.frame true, .setKey 3 true]).operate t ⟨3, by decide⟩
          (.frame true) =
        (invisible.afterAll s ⟨3, by decide⟩ [.frame true, .setKey 3 true]).operate s
          ⟨3, by decide⟩ (.frame true) := by
  intro s t
  have agree : ∀ j < 3, ∀ deed ∈ (neutral.machine.after s j).deed? s,
      deed.AgreesIn s.dialect everySwitch := by decide +kernel
  have drawn : (neutral.machine.after s 3).dirty = true := by decide +kernel
  have agreeFrames : ∀ deed ∈ invisible.deeds s ⟨3, by decide⟩ frameKeyFrame,
      deed.AgreesIn s.dialect everySwitch := by decide +kernel
  have untouched : ∀ deed ∈ invisible.deeds s ⟨3, by decide⟩ frameKeyFrame,
      deed.touches s.dialect = false := by decide +kernel
  obtain ⟨steps, operations⟩ := alike_in_dialects s everySwitch
  obtain ⟨-, last⟩ := steps neutral.machine 3 agree 2 (by decide)
  obtain ⟨-, same⟩ := operations ⟨3, by decide⟩ invisible frameKeyFrame agreeFrames
    (.inr ⟨rfl, untouched⟩) [.frame true, .setKey 3 true] (.frame true) [] rfl
  exact ⟨agree, last, drawn, agreeFrames, untouched, by decide, same⟩

end Console

end Cosmac
