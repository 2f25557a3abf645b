import Cosmac.Table
import Cosmac.Word
import Cosmac.Display
import Cosmac.Dialect

/-!
# The machine

Everything that an instruction can read or change, and apart from it the setup that stays fixed
while a program runs: the dialect and the source of random bytes. The source is a sequence, of which
the machine only knows how many bytes it has taken, so that two sources that agree on these bytes
cannot be told apart.
-/

namespace Cosmac

/-- What a machine has done so far, counted. -/
structure Counters where
  instructions : Nat := 0
  draws : Nat := 0
  clears : Nat := 0
  collisions : Nat := 0
  calls : Nat := 0
  returns : Nat := 0
  jumps : Nat := 0
  skips : Nat := 0
  keyWaits : Nat := 0
  randoms : Nat := 0
  reads : Nat := 0
  writes : Nat := 0
  deriving DecidableEq, Repr

/-- A machine between two instructions. -/
structure Machine where
  memory : Table 12 Byte
  display : Display
  /-- The registers; the last one doubles as the flag. -/
  v : Table 4 Byte
  /-- The index, an address. -/
  i : Addr
  /-- The program counter. -/
  pc : Addr
  /-- The number of return addresses on the stack. -/
  sp : Nat
  stack : Table 4 Addr
  delay : Byte
  sound : Byte
  /-- The keys that are down. -/
  keys : Table 4 Bool
  /-- The display may differ from the picture that was last shown. -/
  dirty : Bool
  /-- A fault has stopped the machine. -/
  crashed : Bool
  /-- A jump to itself has been reported. -/
  warned : Bool
  /-- How many random bytes have been taken. -/
  drawn : Nat
  counters : Counters
  deriving DecidableEq

/-- What stays fixed while a program runs. -/
structure Setup where
  dialect : Dialect := {}
  /-- The random bytes in the order in which they are taken. -/
  random : Nat → Byte := fun _ => 0
  /-- Every instruction is reported before it is carried out. -/
  tracing : Bool := false

namespace Machine

/-- How many return addresses the stack has room for. -/
def stackSize : Nat := 16

/-- Where programs start. -/
def programStart : Addr := 0x200

/-- The length of an instruction in bytes. -/
def instructionSize : Addr := 2

/-- The flag register. -/
def flag : Nibble := 0xF

/-- A machine with empty memory. -/
def empty : Machine where
  memory := .fill 0
  display := .blank
  v := .fill 0
  i := 0
  pc := programStart
  sp := 0
  stack := .fill 0
  delay := 0
  sound := 0
  keys := .fill false
  dirty := false
  crashed := false
  warned := false
  drawn := 0
  counters := {}

/-- Puts a byte into a register. -/
def setReg (m : Machine) (x : Nibble) (b : Byte) : Machine :=
  { m with v := m.v.set x b }

/-- Changes the counters. -/
def tally (m : Machine) (f : Counters → Counters) : Machine :=
  { m with counters := f m.counters }

/-- Sets the delay timer to the last eight bits of a number. -/
def setDelay (m : Machine) (n : Int) : Machine :=
  { m with delay := BitVec.ofInt 8 n }

/-- Sets the sound timer to the last eight bits of a number. -/
def setSound (m : Machine) (n : Int) : Machine :=
  { m with sound := BitVec.ofInt 8 n }

/-- A timer one tick later. -/
def tick (timer : Byte) : Byte :=
  if timer = 0 then 0 else timer - 1

/-- Counts both timers down by one, as happens once in every frame. -/
def tickTimers (m : Machine) : Machine :=
  { m with delay := tick m.delay, sound := tick m.sound }

/-- Takes the display as shown. -/
def markShown (m : Machine) : Machine :=
  { m with dirty := false }

/-- Presses or releases a key. -/
def setKey (m : Machine) (k : Nibble) (down : Bool) : Machine :=
  { m with keys := m.keys.set k down }

/-- The key of a number, if there is one. -/
def key? (n : Int) : Option Nibble :=
  if 0 ≤ n ∧ n < 16 then some (BitVec.ofInt 4 n) else none

/-- What the user is told of a number that is no key. -/
def keyRangeMessage (n : Int) : String :=
  "Key index out of range: " ++ toString n

/-- The key of the last four bits of a number is down. -/
def isKeyDown (m : Machine) (n : Int) : Bool :=
  m.keys[BitVec.ofInt 4 n]

/-- The lowest key that is down. -/
def lowestKey? (m : Machine) : Option Nibble :=
  Nibble.all.find? fun k => m.keys[k]

end Machine

namespace Counters

/-- The counters under the names that reports use. -/
def named (c : Counters) : List (String × Nat) :=
  [("instructions_executed", c.instructions),
   ("display_writes", c.draws),
   ("display_clears", c.clears),
   ("sprite_collisions", c.collisions),
   ("subroutine_calls", c.calls),
   ("returns", c.returns),
   ("jumps_taken", c.jumps),
   ("skips_taken", c.skips),
   ("blocking_key_waits", c.keyWaits),
   ("random_generations", c.randoms),
   ("memory_reads", c.reads),
   ("memory_writes", c.writes)]

/-- The width of the column of names in a report. -/
def nameWidth : Nat := 25

/-- The lines of a report: a heading, a rule and one line for each counter. -/
def report (c : Counters) : List String :=
  "CHIP-8 Emulator Statistics:" :: String.ofList (List.replicate 30 '-') ::
    c.named.map fun (name, n) => String.ofList (name.toList.rightpad nameWidth ' ') ++ ": " ++ toString n

end Counters

end Cosmac
