import Cosmac.Machine.Basic
import Cosmac.Machine.Fault
import Cosmac.Instruction
import Cosmac.Sprite

/-!
# Carrying out an instruction

`Machine.perform` is the effect of one instruction on a machine whose program counter already stands
behind the instruction; it is refused only where the stack has no room or nothing to give back.
`Machine.carryOut` takes a word, finds the instruction by the family of the word and refuses the
words that are none. A refusal comes with the machine as it stands there. `Machine.execute` reports
the fault and stops that machine.

The instruction set as it is read from words is `Instruction.decode?`; `carryOut_eq` says that a word
is carried out as it is read.
-/

namespace Cosmac

/-- What a machine reports while it runs. -/
inductive Machine.Notice where
  /-- A program of so many bytes was put into memory. -/
  | loaded (size : Nat)
  /-- An instruction is about to be carried out. -/
  | executing (word : Word) (site i : Addr) (sp : Nat) (v : Table 4 Byte)
  /-- A jump to its own address, reported once. -/
  | selfJump (site : Addr)
  /-- The machine has stopped. -/
  | fault (f : Fault)
  deriving DecidableEq

/-- The entry that a notice makes in the log. -/
def Machine.Notice.entry : Machine.Notice → Log.Entry
  | loaded size => ⟨.info, .machine, "Loaded ROM: " ++ toString size ++ " bytes"⟩
  | executing word site i sp v =>
    ⟨.debug, .machine, "Executing: " ++ word.text ++ " at PC=" ++ site.text ++ "  I=" ++ i.text ++
      " SP=" ++ toString sp ++ " V=" ++
      " ".intercalate (v.toList.map fun b => Hex.upper 2 b.toNat)⟩
  | selfJump site =>
    ⟨.warning, .machine,
      "Infinite jump detected at PC=" ++ site.text ++ " (further warnings suppressed)"⟩
  | fault f => ⟨.error, .machine, "ERROR: " ++ f.message⟩

namespace Arith

/-- The registers after an operation on `x` and `y`. The result is written first and the flag after
it, so an operation on the flag register itself leaves the flag. -/
def apply (d : Dialect) (op : Arith) (x y : Nibble) (v : Table 4 Byte) : Table 4 Byte :=
  let a := v[x]
  let b := v[y]
  let flagged (result : Byte) (flag : Bool) : Table 4 Byte :=
    (v.set x result).set Machine.flag (if flag then 1 else 0)
  let bitwise (f : Byte → Byte → Byte) : Table 4 Byte :=
    let v := if d.vfReset then v.set Machine.flag 0 else v
    v.set x (f v[x] v[y])
  let source := if d.shifting then b else a
  match op with
  | copy => v.set x b
  | or => bitwise (· ||| ·)
  | and => bitwise (· &&& ·)
  | xor => bitwise (· ^^^ ·)
  | add => flagged (a + b) (decide (256 ≤ a.toNat + b.toNat))
  | sub => flagged (a - b) (decide (b.toNat ≤ a.toNat))
  | subFrom => flagged (b - a) (decide (a.toNat ≤ b.toNat))
  | shiftRight => flagged (source >>> 1) (source.getLsbD 0)
  | shiftLeft => flagged (source <<< 1) source.msb

end Arith

namespace Machine

/-- Where the current instruction stands, the program counter being one instruction ahead. -/
def here (m : Machine) : Addr :=
  m.pc - instructionSize

/-- A condition holds in a state of the machine. -/
def holds (m : Machine) : Condition → Bool
  | .equalsByte x kk => m.v[x] == kk
  | .differsByte x kk => m.v[x] != kk
  | .equals x y => m.v[x] == m.v[y]
  | .differs x y => m.v[x] != m.v[y]
  | .keyDown x => m.keys[m.v[x].setWidth 4]
  | .keyUp x => !m.keys[m.v[x].setWidth 4]

/-- The three decimal digits of a byte. -/
def decimal (b : Byte) : List Byte :=
  [b / 100, b / 10 % 10, b % 10]

/-- Draws the sprite of `n` rows at the index with its corner at the position that two registers
hold, and raises the flag if it turned off a cell that was on. -/
def drawSprite (d : Dialect) (m : Machine) (x y n : Nibble) : Machine :=
  let edge : Edge := if d.clipping then .clip else .wrap
  let origin : Cell := ⟨m.v[y].setWidth 5, m.v[x].setWidth 6⟩
  let rows := Sprite.rowCount edge origin n.toNat
  let cells := Sprite.cells edge origin (m.memory.read m.i rows)
  let plotted := m.display.plot cells
  { m with
    display := plotted.display
    v := m.v.set flag (if 0 < plotted.hits then 1 else 0)
    dirty := m.dirty || !cells.isEmpty
    counters := { m.counters with
      reads := m.counters.reads + rows
      collisions := m.counters.collisions + plotted.hits
      draws := m.counters.draws + 1 } }

/-- The index behind a block of registers, for dialects in which block transfers move it. -/
def indexAfter (d : Dialect) (i : Addr) (x : Nibble) : Addr :=
  if d.memory then i + BitVec.ofNat 12 (x.toNat + 1) else i

/-- Gives an instruction up. What was written before stays written. -/
def refuse (m : Machine) (f : Fault) : Attempt Machine :=
  .error ⟨f, m⟩

/-- The effect of one instruction, the program counter being one instruction ahead. -/
def perform (s : Setup) (m : Machine) : Instruction → Attempt Machine
  | .clear =>
    .ok { m with
      display := .blank
      dirty := true
      counters := { m.counters with clears := m.counters.clears + 1 } }
  | .ret =>
    if m.sp = 0 then m.refuse (.stackUnderflow m.here)
    else .ok { m with
      sp := m.sp - 1
      pc := m.stack[BitVec.ofNat 4 (m.sp - 1)]
      counters := { m.counters with returns := m.counters.returns + 1 } }
  | .jump nnn =>
    .ok { m with
      pc := nnn
      warned := m.warned || nnn == m.here
      counters := { m.counters with jumps := m.counters.jumps + 1 } }
  | .call nnn =>
    if stackSize ≤ m.sp then m.refuse (.stackOverflow m.here)
    else .ok { m with
      stack := m.stack.set (BitVec.ofNat 4 m.sp) m.pc
      sp := m.sp + 1
      pc := nnn
      counters := { m.counters with calls := m.counters.calls + 1 } }
  | .skip c =>
    if m.holds c then
      .ok { m with
        pc := m.pc + instructionSize
        counters := { m.counters with skips := m.counters.skips + 1 } }
    else .ok m
  | .load x kk => .ok (m.setReg x kk)
  | .add x kk => .ok (m.setReg x (m.v[x] + kk))
  | .arith op x y => .ok { m with v := op.apply s.dialect x y m.v }
  | .setIndex nnn => .ok { m with i := nnn }
  | .jumpOffset nnn =>
    let target : Addr :=
      if s.dialect.jumping then
        (nnn.setWidth 8).setWidth 12 + (m.v[(nnn.extractLsb' 8 4 : Nibble)]).setWidth 12
      else nnn + (m.v[(0 : Nibble)]).setWidth 12
    .ok { m with
      pc := target
      counters := { m.counters with jumps := m.counters.jumps + 1 } }
  | .random x kk =>
    .ok { m with
      v := m.v.set x (s.random m.drawn &&& kk)
      drawn := m.drawn + 1
      counters := { m.counters with randoms := m.counters.randoms + 1 } }
  | .draw x y n => .ok (m.drawSprite s.dialect x y n)
  | .readDelay x => .ok (m.setReg x m.delay)
  | .awaitKey x =>
    match m.lowestKey? with
    | some k => .ok { m with v := m.v.set x (k.setWidth 8), keys := m.keys.set k false }
    | none =>
      .ok { m with
        pc := m.here
        counters := { m.counters with keyWaits := m.counters.keyWaits + 1 } }
  | .setDelay x => .ok { m with delay := m.v[x] }
  | .setSound x => .ok { m with sound := m.v[x] }
  | .addIndex x => .ok { m with i := m.i + m.v[x].setWidth 12 }
  | .glyph x => .ok { m with i := m.v[x].setWidth 12 * 5 }
  | .digits x =>
    .ok { m with
      memory := m.memory.write m.i (decimal m.v[x])
      counters := { m.counters with writes := m.counters.writes + 3 } }
  | .store x =>
    .ok { m with
      memory := m.memory.write m.i (m.v.read 0 (x.toNat + 1))
      i := indexAfter s.dialect m.i x
      counters := { m.counters with writes := m.counters.writes + (x.toNat + 1) } }
  | .fetch x =>
    .ok { m with
      v := m.v.write 0 (m.memory.read m.i (x.toNat + 1))
      i := indexAfter s.dialect m.i x
      counters := { m.counters with reads := m.counters.reads + (x.toNat + 1) } }

/-- Carries out a word, the program counter being one instruction ahead. The families `0`, `5`, `8`,
`9`, `E` and `F` each have words that are no instruction. -/
def carryOut (s : Setup) (m : Machine) (w : Word) : Attempt Machine :=
  match w.family with
  | 0x0#4 =>
    if w = 0x00E0#16 then m.perform s .clear
    else if w = 0x00EE#16 then m.perform s .ret
    else m.refuse (.unknown w m.here)
  | 0x1#4 => m.perform s (.jump w.nnn)
  | 0x2#4 => m.perform s (.call w.nnn)
  | 0x3#4 => m.perform s (.skip (.equalsByte w.x w.kk))
  | 0x4#4 => m.perform s (.skip (.differsByte w.x w.kk))
  | 0x5#4 =>
    if w.n = 0 then m.perform s (.skip (.equals w.x w.y))
    else m.refuse (.unknown w m.here)
  | 0x6#4 => m.perform s (.load w.x w.kk)
  | 0x7#4 => m.perform s (.add w.x w.kk)
  | 0x8#4 =>
    match Arith.ofNibble? w.n with
    | some op => m.perform s (.arith op w.x w.y)
    | none => m.refuse (.unknown w m.here)
  | 0x9#4 =>
    if w.n = 0 then m.perform s (.skip (.differs w.x w.y))
    else m.refuse (.unknown w m.here)
  | 0xA#4 => m.perform s (.setIndex w.nnn)
  | 0xB#4 => m.perform s (.jumpOffset w.nnn)
  | 0xC#4 => m.perform s (.random w.x w.kk)
  | 0xD#4 => m.perform s (.draw w.x w.y w.n)
  | 0xE#4 =>
    if w.kk = 0x9E then m.perform s (.skip (.keyDown w.x))
    else if w.kk = 0xA1 then m.perform s (.skip (.keyUp w.x))
    else m.refuse (.unknown w m.here)
  | _ =>
    match Instruction.ofDeviceCode? w.x w.kk with
    | some i => m.perform s i
    | none => m.refuse (.unknown w m.here)

/-- **A word is carried out as it is read.** One that is no instruction is refused. -/
theorem carryOut_eq (s : Setup) (m : Machine) (w : Word) :
    m.carryOut s w =
      match Instruction.decode? w with
      | some i => m.perform s i
      | none => m.refuse (.unknown w m.here) := by
  unfold carryOut Instruction.decode?
  generalize w.family = family
  split
  case h_1 =>
    by_cases clear : w = 0x00E0#16
    · simp [clear]
    · by_cases ret : w = 0x00EE#16 <;> simp [clear, ret]
  case h_6 => split <;> rfl
  case h_9 => cases Arith.ofNibble? w.n <;> rfl
  case h_10 => split <;> rfl
  case h_15 =>
    by_cases down : w.kk = 0x9E#8
    · simp [down]
    · by_cases up : w.kk = 0xA1#8 <;> simp [down, up]
  case h_16 => cases Instruction.ofDeviceCode? w.x w.kk <;> simp
  all_goals rfl

/-- The address of a jump to itself that has yet to be reported. -/
def selfJump? (m : Machine) : Instruction → Option Addr
  | .jump nnn => if nnn = m.here ∧ m.warned = false then some nnn else none
  | _ => none

/-- What came of a word: the machine after it, the notices in order and the fault, if it stopped. -/
structure Reply where
  machine : Machine
  notices : List Notice
  fault? : Option Fault

/-- Stops the machine on a fault. -/
def stop (m : Machine) (f : Fault) : Reply :=
  ⟨{ m with crashed := true }, [.fault f], some f⟩

/-- Carries out a word, the program counter being one instruction ahead, and stops the machine where
the word is refused. A machine that has stopped carries it out all the same. -/
def execute (s : Setup) (m : Machine) (w : Word) : Reply :=
  match m.carryOut s w with
  | .error r => r.machine.stop r.fault
  | .ok next =>
    ⟨next, ((Instruction.decode? w).bind m.selfJump?).toList.map .selfJump, none⟩

/-- What comes of a word by the way it is read. -/
theorem execute_eq (s : Setup) (m : Machine) (w : Word) :
    m.execute s w =
      match Instruction.decode? w with
      | none => m.stop (.unknown w m.here)
      | some i =>
        match m.perform s i with
        | .error r => r.machine.stop r.fault
        | .ok next => ⟨next, (m.selfJump? i).toList.map .selfJump, none⟩ := by
  rw [execute, carryOut_eq]
  cases Instruction.decode? w <;> rfl

/-- The word that the program counter points at; it may wrap around the end of memory. -/
def word (m : Machine) : Word :=
  m.memory[m.pc] ++ m.memory[m.pc + 1]

/-- The notice of the instruction at the program counter, where these are wanted. -/
def trace (s : Setup) (m : Machine) : List Notice :=
  if s.tracing then [.executing m.word m.pc m.i m.sp m.v] else []

/-- Fetches the instruction at the program counter and carries it out, unless the machine has
stopped. -/
def step (s : Setup) (m : Machine) : Reply :=
  if m.crashed then ⟨m, [], some .halted⟩
  else
    let reply := { m with pc := m.pc + instructionSize }.execute s m.word
    let notices := m.trace s ++ reply.notices
    match reply.fault? with
    | some f => ⟨reply.machine, notices, some f⟩
    | none =>
      ⟨reply.machine.tally fun c => { c with instructions := c.instructions + 1 }, notices, none⟩

end Machine

end Cosmac
