import Cosmac.Table
import Cosmac.Word

/-!
# Seeded random bytes

The sequence of bytes that a seed stands for. The seed, a number of any size, is hashed into 256
bits; half of them set the state of a congruential generator on 128-bit words and the other half its
increment. Each state gives a word of 64 bits, which is cut in two, and the top byte of each half is
one byte of the sequence.

A state is reached by an affine map applied again and again, and such maps compose to maps of the
same kind, so the byte at any place is computed without those before it.
-/

namespace Cosmac.Random

/-- A negative number is no seed. -/
inductive SeedError where
  | negative
  deriving DecidableEq, Repr

/-- What the user is told. -/
def SeedError.message : SeedError → String
  | negative => "expected non-negative integer"

/-! ## Hashing the seed -/

/-- The 32-bit words of a number, low word first; zero has one word. -/
def words (n : Nat) : List (BitVec 32) :=
  if n < 0x100000000 then [BitVec.ofNat 32 n]
  else BitVec.ofNat 32 n :: words (n / 0x100000000)
termination_by n
decreasing_by exact Nat.div_lt_self (by omega) (by decide)

/-- The high half of a word folded onto the low half. -/
def fold (v : BitVec 32) : BitVec 32 :=
  v ^^^ (v >>> 16)

/-- Four words of hash, with the constant that the next word is hashed with. -/
structure Pool where
  constant : BitVec 32
  cells : Table 2 (BitVec 32)

namespace Pool

/-- Hashes a word and moves the constant on. -/
def hash (p : Pool) (v : BitVec 32) : BitVec 32 × Pool :=
  let next := p.constant * 0x931E8875
  (fold ((v ^^^ p.constant) * next), { p with constant := next })

/-- Puts the hash of a word into one cell. -/
def fillCell (p : Pool) (k : BitVec 2) (v : BitVec 32) : Pool :=
  let (h, p) := p.hash v
  { p with cells := p.cells.set k h }

/-- Mixes the hash of a word into one cell. -/
def stir (p : Pool) (v : BitVec 32) (k : BitVec 2) : Pool :=
  let (h, p) := p.hash v
  { p with cells := p.cells.set k (fold (0xCA01F9DD * p.cells[k] - 0x4973F715 * h)) }

/-- Mixes the hash of one cell into each of the others. -/
def spread (p : Pool) (src : BitVec 2) : Pool :=
  ((Table.indices 2).filter (· != src)).foldl (fun p dst => p.stir p.cells[src] dst) p

/-- The pool of a seed: its first four words fill the cells, the cells are mixed with each other, and
the other words are mixed into all of them. -/
def ofSeed (seed : Nat) : Pool :=
  let entropy := words seed
  let filled := (Table.indices 2).foldl (fun p k => p.fillCell k (entropy.getD k.toNat 0))
    ⟨0x43B0D7E5, .fill 0⟩
  let mixed := (Table.indices 2).foldl spread filled
  (entropy.drop 4).foldl (fun p v => (Table.indices 2).foldl (fun p k => p.stir v k) p) mixed

/-- The words drawn from a pool, whose cells are read in turn with a constant of their own. -/
def draw (cells : Table 2 (BitVec 32)) (constant : BitVec 32) (k : BitVec 2) :
    Nat → List (BitVec 32)
  | 0 => []
  | n + 1 =>
    let next := constant * 0x58F38DED
    fold ((cells[k] ^^^ constant) * next) :: draw cells next (k + 1) n

end Pool

/-! ## The generator -/

/-- The map that takes `s` to `scale * s + shift`. -/
structure Affine where
  scale : BitVec 128
  shift : BitVec 128

namespace Affine

/-- The value of the map at `s`. -/
def apply (f : Affine) (s : BitVec 128) : BitVec 128 :=
  f.scale * s + f.shift

/-- First `f`, then `g`. -/
def andThen (f g : Affine) : Affine :=
  ⟨g.scale * f.scale, g.scale * f.shift + g.shift⟩

/-- The map applied `n` times, by repeated doubling. -/
def iterate (f : Affine) (n : Nat) : Affine :=
  if n = 0 then ⟨1, 0⟩
  else
    let half := (f.andThen f).iterate (n / 2)
    if n % 2 = 0 then half else f.andThen half
termination_by n
decreasing_by exact Nat.div_lt_self (by omega) (by decide)

end Affine

/-- A state and the map that leads to the next one. -/
structure Generator where
  state : BitVec 128
  step : Affine

namespace Generator

/-- Two 64-bit words from four 32-bit words, low word first. -/
def pair (ws : List (BitVec 32)) (k : Nat) : BitVec 64 :=
  ws.getD (2 * k + 1) 0 ++ ws.getD (2 * k) 0

/-- The generator of a seed. -/
def ofSeed (seed : Nat) : Generator :=
  let ws := Pool.draw (Pool.ofSeed seed).cells 0x8B51F9DD 0 8
  let start : BitVec 128 := pair ws 0 ++ pair ws 1
  let increment : BitVec 128 := ((pair ws 2 ++ pair ws 3) <<< 1) ||| 1
  let step : Affine := ⟨0x2360ED051FC65DA44385DF649FCCF645, increment⟩
  ⟨step.apply (step.apply 0 + start), step⟩

/-- The word that a state gives: its halves combined and turned by its top six bits. -/
def output (state : BitVec 128) : BitVec 64 :=
  let mixed : BitVec 64 := state.extractLsb' 64 64 ^^^ state.extractLsb' 0 64
  mixed.rotateRight (state >>> 122).toNat

/-- The byte at place `k` of the sequence. -/
def byte (g : Generator) (k : Nat) : Byte :=
  let word := output ((g.step.iterate (k / 2 + 1)).apply g.state)
  if k % 2 = 0 then word.extractLsb' 24 8 else word.extractLsb' 56 8

end Generator

/-- The sequence of a seed. -/
def ofSeed? (seed : Int) : Except SeedError (Nat → Byte) :=
  if seed < 0 then .error .negative
  else
    let g := Generator.ofSeed seed.toNat
    .ok g.byte

/-- The sequence that goes through a list of numbers again and again, of which the last eight bits
count. -/
def cycle (values : Array Int) : Nat → Byte :=
  fun k => BitVec.ofInt 8 (values.getD (k % values.size) 0)

end Cosmac.Random
