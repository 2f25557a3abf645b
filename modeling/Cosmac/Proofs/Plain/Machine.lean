import Cosmac.Operation
import Cosmac.Machine.Program
import Cosmac.Proofs.Plain.Access

/-!
# The machine as arrays of numbers

A machine none of whose parts is bounded by its type. Memory, registers, stack, display and keypad
are arrays of any size, addresses and depths are numbers, and nothing wraps unless an instruction
says so: every access is checked, and one that fails ends everything with a breach, which is not one
of the faults that a machine reports. A sprite is drawn bit by bit and a block is moved cell by
cell, each with the loop that moves it.

`Plain.InRange` lists the bounds that all parts are meant to keep.
-/

namespace Cosmac

open Checked

/-- A machine whose parts may be of any size. -/
structure Plain where
  memory : Array Nat
  display : Array (Array Bool)
  v : Array Nat
  i : Nat
  pc : Nat
  sp : Nat
  stack : Array Nat
  delay : Nat
  sound : Nat
  keys : Array Bool
  dirty : Bool
  crashed : Bool
  warned : Bool
  drawn : Nat
  counters : Counters

namespace Plain

/-- Every part is of its size and every number within its bounds. -/
structure InRange (p : Plain) : Prop where
  memory : p.memory.size = 4096 ∧ ∀ n ∈ p.memory, n < 256
  display : p.display.size = 32 ∧ ∀ row ∈ p.display, row.size = 64
  v : p.v.size = 16 ∧ ∀ n ∈ p.v, n < 256
  i : p.i < 4096
  pc : p.pc < 4096
  sp : p.sp ≤ 16
  stack : p.stack.size = 16 ∧ ∀ n ∈ p.stack, n < 4096
  delay : p.delay < 256
  sound : p.sound < 256
  keys : p.keys.size = 16

/-- The content of a register. -/
def reg (p : Plain) (x : Nat) : Except Breach Nat :=
  load p.v x

/-- Writes a byte to a register. -/
def setReg (p : Plain) (x n : Nat) : Except Breach Plain := do
  .ok { p with v := ← store 256 p.v x n }

/-- Writes the flag if a condition holds. -/
def setFlagIf (p : Plain) (condition : Bool) (n : Nat) : Except Breach Plain :=
  if condition then p.setReg 15 n else .ok p

/-- Where the current instruction stands, the program counter being one instruction ahead. -/
def here (p : Plain) : Nat :=
  (((p.pc : Int) - 2) % 4096).toNat

/-- The same place as faults name it. -/
def site (p : Plain) : Addr :=
  BitVec.ofNat 12 p.here

/-- Passes over the next instruction if a condition holds. -/
def skipIf (p : Plain) (condition : Bool) : Plain :=
  if condition then
    { p with
      pc := (p.pc + 2) % 4096
      counters := { p.counters with skips := p.counters.skips + 1 } }
  else p

/-- The key of the last four bits of a register is down. -/
def keyDown (p : Plain) (x : Nat) : Except Breach Bool := do
  load p.keys ((← p.reg x) % 16 : Nat)

/-- What the condition of a skip comes to. -/
def holds (p : Plain) : Condition → Except Breach Bool
  | .equalsByte x kk => do .ok ((← p.reg x.toNat) == kk.toNat)
  | .differsByte x kk => do .ok ((← p.reg x.toNat) != kk.toNat)
  | .equals x y => do .ok ((← p.reg x.toNat) == (← p.reg y.toNat))
  | .differs x y => do .ok ((← p.reg x.toNat) != (← p.reg y.toNat))
  | .keyDown x => p.keyDown x.toNat
  | .keyUp x => do .ok (!(← p.keyDown x.toNat))

/-! ## Two registers -/

/-- Writes a result and then the flag. -/
def setFlagged (p : Plain) (x result : Nat) (flag : Bool) : Except Breach Plain := do
  (← p.setReg x result).setReg 15 flag.toNat

/-- Puts a bitwise function of two registers into the first one. Dialects that reset the flag do so
before the operands are read. -/
def bitwise (d : Dialect) (p : Plain) (f : Nat → Nat → Nat) (x y : Nat) : Except Breach Plain := do
  let p ← p.setFlagIf d.vfReset 0
  p.setReg x (f (← p.reg x) (← p.reg y))

/-- The effect of an arithmetic instruction on two registers. -/
def arith (d : Dialect) (p : Plain) (op : Arith) (x y : Nat) : Except Breach Plain := do
  match op with
  | .copy => p.setReg x (← p.reg y)
  | .or => p.bitwise d (· ||| ·) x y
  | .and => p.bitwise d (· &&& ·) x y
  | .xor => p.bitwise d (· ^^^ ·) x y
  | .add =>
    let sum := (← p.reg x) + (← p.reg y)
    p.setFlagged x (sum % 256) (255 < sum)
  | .sub =>
    let a ← p.reg x
    let b ← p.reg y
    p.setFlagged x (((a : Int) - b) % 256).toNat (!(a < b))
  | .subFrom =>
    let a ← p.reg x
    let b ← p.reg y
    p.setFlagged x (((b : Int) - a) % 256).toNat (!(b < a))
  | .shiftRight =>
    let source ← p.reg (if d.shifting then y else x)
    p.setFlagged x (source >>> 1) (source % 2 = 1)
  | .shiftLeft =>
    let source ← p.reg (if d.shifting then y else x)
    p.setFlagged x (source <<< 1 % 256) (128 ≤ source)

/-! ## Sprites -/

/-- Turns the cell in row `y` and column `x` over and raises the flag if it was on. -/
def turnOver (p : Plain) (y x : Nat) : Except Breach Plain := do
  let row ← load p.display y
  let lit ← load row x
  let p ← p.setFlagIf lit 1
  let row ← put row x (!lit)
  .ok { p with
    display := ← put p.display y row
    dirty := true
    counters := { p.counters with collisions := p.counters.collisions + lit.toNat } }

/-- Turns a cell over for a bit that is set. -/
def turnOverIf (p : Plain) (bit : Bool) (y x : Nat) : Except Breach Plain :=
  if bit then p.turnOver y x else .ok p

/-- Draws the bits in the given columns of a byte, in row `y`. -/
def drawColumns (clip : Bool) (y col bits : Nat) (p : Plain) : List Nat → Except Breach Plain
  | [] => .ok p
  | dc :: columns =>
    if 64 ≤ col + dc ∧ clip then .ok p
    else do
      let p ← p.turnOverIf (bits.testBit (7 - dc)) y ((col + dc) % 64)
      p.drawColumns clip y col bits columns

/-- One more row of a sprite was looked at. -/
def countRow (p : Plain) : Plain :=
  { p with counters := { p.counters with reads := p.counters.reads + 1 } }

/-- Draws the given rows of the sprite at the index. -/
def drawRows (clip : Bool) (row col : Nat) (p : Plain) : List Nat → Except Breach Plain
  | [] => .ok p
  | dr :: rows =>
    if 32 ≤ row + dr ∧ clip then .ok p
    else do
      let bits ← load p.memory ((p.i + dr) % 4096 : Nat)
      let p ← p.countRow.drawColumns clip ((row + dr) % 32) col bits (List.range' 0 8)
      p.drawRows clip row col rows

/-- Draws the sprite at the index with its corner where two registers say. They are read before the
flag is cleared, so that either may be the flag. -/
def draw (clip : Bool) (p : Plain) (x y n : Nat) : Except Breach Plain := do
  let col := (← p.reg x) % 64
  let row := (← p.reg y) % 32
  let p ← p.setReg 15 0
  let p ← p.drawRows clip row col (List.range' 0 n)
  .ok { p with counters := { p.counters with draws := p.counters.draws + 1 } }

/-! ## Blocks of memory -/

/-- Writes a number to the cell `k` behind the index. -/
def setCell (p : Plain) (k n : Nat) : Except Breach Plain := do
  .ok { p with memory := ← store 256 p.memory ((p.i + k) % 4096 : Nat) n }

/-- Writes the given registers to memory, each as far behind the index as its number says. -/
def storeBlock (p : Plain) : List Nat → Except Breach Plain
  | [] => .ok p
  | k :: ks => do (← p.setCell k (← p.reg k)).storeBlock ks

/-- Reads the given registers from memory, each from as far behind the index as its number says. -/
def fetchBlock (p : Plain) : List Nat → Except Breach Plain
  | [] => .ok p
  | k :: ks => do (← p.setReg k (← load p.memory ((p.i + k) % 4096 : Nat))).fetchBlock ks

/-- Moves the index behind a block of registers in dialects that do so. -/
def moveIndex (d : Dialect) (p : Plain) (x : Nat) : Plain :=
  if d.memory then { p with i := (p.i + x + 1) % 4096 } else p

/-! ## Instructions -/

/-- Where an offset jump goes. -/
def offsetTarget (d : Dialect) (p : Plain) (nnn : Nat) : Except Breach Nat :=
  if d.jumping then do .ok ((nnn % 256 + (← p.reg (nnn / 256))) % 4096)
  else do .ok ((nnn + (← p.reg 0)) % 4096)

/-- Gives an instruction up. What was written before stays written. -/
def refuse (p : Plain) (f : Fault) : Except Breach (Attempt Plain) :=
  .ok (.error ⟨f, p⟩)

/-- The result of an instruction that no fault can stop. -/
def done (next : Except Breach Plain) : Except Breach (Attempt Plain) :=
  next.map .ok

/-- The effect of one instruction, the program counter being one instruction ahead. -/
def perform (s : Setup) (p : Plain) : Instruction → Except Breach (Attempt Plain)
  | .clear =>
    done <| .ok { p with
      display := p.display.map fun row => row.map fun _ => false
      dirty := true
      counters := { p.counters with clears := p.counters.clears + 1 } }
  | .ret =>
    if p.sp = 0 then p.refuse (.stackUnderflow p.site)
    else done do
      .ok { p with
        sp := p.sp - 1
        pc := ← load p.stack ((p.sp : Int) - 1)
        counters := { p.counters with returns := p.counters.returns + 1 } }
  | .jump nnn =>
    done <| .ok { p with
      pc := nnn.toNat
      warned := p.warned || nnn.toNat == p.here
      counters := { p.counters with jumps := p.counters.jumps + 1 } }
  | .call nnn =>
    if 16 ≤ p.sp then p.refuse (.stackOverflow p.site)
    else done do
      .ok { p with
        stack := ← store 65536 p.stack p.sp p.pc
        sp := p.sp + 1
        pc := nnn.toNat
        counters := { p.counters with calls := p.counters.calls + 1 } }
  | .skip c => done do .ok (p.skipIf (← p.holds c))
  | .load x kk => done <| p.setReg x.toNat kk.toNat
  | .add x kk => done do p.setReg x.toNat (((← p.reg x.toNat) + kk.toNat) % 256)
  | .arith op x y => done <| p.arith s.dialect op x.toNat y.toNat
  | .setIndex nnn => done <| .ok { p with i := nnn.toNat }
  | .jumpOffset nnn => done do
    .ok { p with
      pc := ← p.offsetTarget s.dialect nnn.toNat
      counters := { p.counters with jumps := p.counters.jumps + 1 } }
  | .random x kk => done do
    let p ← p.setReg x.toNat ((s.random p.drawn).toNat &&& kk.toNat)
    .ok { p with
      drawn := p.drawn + 1
      counters := { p.counters with randoms := p.counters.randoms + 1 } }
  | .draw x y n => done <| p.draw s.dialect.clipping x.toNat y.toNat n.toNat
  | .readDelay x => done <| p.setReg x.toNat p.delay
  | .awaitKey x =>
    match p.keys.findIdx? fun down => down with
    | some k => done do
      let p ← p.setReg x.toNat k
      .ok { p with keys := ← put p.keys k false }
    | none =>
      done <| .ok { p with
        pc := p.here
        counters := { p.counters with keyWaits := p.counters.keyWaits + 1 } }
  | .setDelay x => done do .ok { p with delay := (← p.reg x.toNat) % 256 }
  | .setSound x => done do .ok { p with sound := (← p.reg x.toNat) % 256 }
  | .addIndex x => done do .ok { p with i := (p.i + (← p.reg x.toNat)) % 4096 }
  | .glyph x => done do .ok { p with i := (← p.reg x.toNat) * 5 % 4096 }
  | .digits x => done do
    let n ← p.reg x.toNat
    let p ← p.setCell 0 (n / 100)
    let p ← p.setCell 1 (n / 10 % 10)
    let p ← p.setCell 2 (n % 10)
    .ok { p with counters := { p.counters with writes := p.counters.writes + 3 } }
  | .store x => done do
    let p ← p.storeBlock (List.range' 0 (x.toNat + 1))
    let p := p.moveIndex s.dialect x.toNat
    .ok { p with
      counters := { p.counters with writes := p.counters.writes + (x.toNat + 1) } }
  | .fetch x => done do
    let p ← p.fetchBlock (List.range' 0 (x.toNat + 1))
    let p := p.moveIndex s.dialect x.toNat
    .ok { p with
      counters := { p.counters with reads := p.counters.reads + (x.toNat + 1) } }

/-- What came of a word. -/
structure Reply where
  machine : Plain
  fault? : Option Fault

/-- What a word reads before it is known to be no instruction: of the `Ex` family, a key. -/
def probe (p : Plain) (w : Word) : Except Breach Unit :=
  if w.family = 0xE then do
    let _ ← p.keyDown w.x.toNat
    .ok ()
  else .ok ()

/-- What becomes of a word, the program counter being one instruction ahead. -/
def outcome (s : Setup) (p : Plain) (w : Word) : Except Breach (Attempt Plain) :=
  match Instruction.decode? w with
  | some i => p.perform s i
  | none => do
    p.probe w
    p.refuse (.unknown w p.site)

/-- Carries out the last sixteen bits of a number, and stops the machine where they are refused. -/
def execute (s : Setup) (p : Plain) (w : Int) : Except Breach Reply := do
  match ← p.outcome s (BitVec.ofInt 16 w) with
  | .ok next => .ok ⟨next, none⟩
  | .error r => .ok ⟨{ r.machine with crashed := true }, some r.fault⟩

/-- The word that the program counter points at. -/
def word (p : Plain) : Except Breach Nat := do
  let high ← load p.memory p.pc
  let low ← load p.memory ((p.pc + 1) % 4096 : Nat)
  .ok (high <<< 8 ||| low)

/-- Moves the program counter on to the next instruction. -/
def advance (p : Plain) : Plain :=
  { p with pc := (p.pc + 2) % 4096 }

/-- Counts an instruction that was carried out. -/
def count (p : Plain) : Plain :=
  { p with counters := { p.counters with instructions := p.counters.instructions + 1 } }

/-- Fetches the instruction at the program counter and carries it out, unless the machine has
stopped. -/
def step (s : Setup) (p : Plain) : Except Breach Reply :=
  if p.crashed then .ok ⟨p, some .halted⟩
  else do
    let reply ← p.advance.execute s (← p.word)
    match reply.fault? with
    | some f => .ok ⟨reply.machine, some f⟩
    | none => .ok ⟨reply.machine.count, none⟩

/-! ## Operations -/

/-- Counts both timers down, to zero at the lowest. -/
def tickTimers (p : Plain) : Plain :=
  { p with delay := p.delay - 1, sound := p.sound - 1 }

/-- Lowers the mark that the display has changed. -/
def markShown (p : Plain) : Plain :=
  { p with dirty := false }

/-- Presses or releases a key. A number that is no key is refused and changes nothing. -/
def setKey (p : Plain) (k : Int) (down : Bool) : Except Breach Plain :=
  if 0 ≤ k ∧ k < 16 then do .ok { p with keys := ← put p.keys k down } else .ok p

/-- At most `n` steps, with what the last one met. -/
def steps (s : Setup) (p : Plain) : Nat → Except Breach Reply
  | 0 => .ok ⟨p, none⟩
  | n + 1 => do
    let reply ← p.step s
    if reply.fault?.isSome || (s.dialect.displayWait && reply.machine.dirty) then .ok reply
    else reply.machine.steps s n

/-- Runs one frame. -/
def frame (s : Setup) (pace : Pace) (accepts : Bool) (p : Plain) : Except Breach Plain := do
  let reply ← p.steps s pace.instructions
  if reply.fault?.isSome then .ok reply.machine
  else
    let p := reply.machine.tickTimers
    .ok (if p.dirty && accepts then p.markShown else p)

/-- One thing that can be done with a machine from outside, whatever number is given. -/
inductive Operation where
  | step
  | execute (w : Int)
  | setKey (k : Int) (down : Bool)
  | setDelay (n : Int)
  | setSound (n : Int)
  | tickTimers
  | markShown
  | frame (accepts : Bool)
  deriving DecidableEq, Repr

/-- Does one thing. -/
def operate (s : Setup) (pace : Pace) (p : Plain) : Operation → Except Breach Plain
  | .step => do .ok (← p.step s).machine
  | .execute w => do .ok (← p.execute s w).machine
  | .setKey k down => p.setKey k down
  | .setDelay n => .ok { p with delay := (n % 256).toNat }
  | .setSound n => .ok { p with sound := (n % 256).toNat }
  | .tickTimers => .ok p.tickTimers
  | .markShown => .ok p.markShown
  | .frame accepts => p.frame s pace accepts

/-- Does one thing after another, whatever each of them comes to. -/
def run (s : Setup) (pace : Pace) (p : Plain) : List Operation → Except Breach Plain
  | [] => .ok p
  | op :: ops => do (← p.operate s pace op).run s pace ops

end Plain

end Cosmac
