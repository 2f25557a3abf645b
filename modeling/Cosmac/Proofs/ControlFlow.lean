import Cosmac.Proofs.Accounts
import Cosmac.Proofs.Recognition
import Mathlib.Tactic.MkIffOfInductiveProp

/-!
# Where a program goes

An instruction is followed by the next one in memory, two bytes on, unless it takes a turn: it jumps,
calls, returns, passes over the next instruction or waits at its own address. `Turns` says of a word,
by the form that it has and by the state before it is carried out, which turn it takes and to which
address. `turn?` says the same of an instruction; what `perform` makes of the program counter and of
the counters of turns is read off it (`pc_of_perform`, `turns_gain`).

The program counter stands behind the instruction while it is carried out, and from there it is moved
on, replaced or set back. All addresses here are counted from the instruction itself, modulo 4096, so
nothing is different at the end of memory.
-/

namespace Cosmac

namespace Word

theorem toNat_nnn (w : Word) : w.nnn.toNat = w.toNat % 4096 := by
  rw [nnn, BitVec.extractLsb'_toNat, Nat.shiftRight_zero]

theorem toNat_kk (w : Word) : w.kk.toNat = w.toNat % 256 := by
  rw [kk, BitVec.extractLsb'_toNat, Nat.shiftRight_zero]

@[simp] theorem x_wordOfAddr (f : Nibble) (nnn : Addr) :
    (Instruction.wordOfAddr f nnn).x = nnn.extractLsb' 8 4 :=
  BitVec.extractLsb'_append_eq_of_add_le (by decide)

@[simp] theorem kk_wordOfAddr (f : Nibble) (nnn : Addr) :
    (Instruction.wordOfAddr f nnn).kk = nnn.setWidth 8 := by
  show (f ++ nnn).extractLsb' 0 8 = _
  rw [BitVec.extractLsb'_append_eq_of_add_le (by decide)]
  exact (BitVec.setWidth_eq_extractLsb' (by decide)).symm

end Word

/-- The word of an instruction has the form of the instruction and no other. -/
theorem Instruction.fits_encode_iff {i : Instruction} {form : String} (listed : form ∈ forms) :
    i.encode.Fits form ↔ i.form = form := by
  rw [fits_iff_decode? listed, decode?_encode]
  simp

/-- A way to leave the order of the instructions in memory. -/
inductive Turn where
  | jump
  | call
  | ret
  /-- The next instruction is passed over. -/
  | skip
  /-- The instruction is to be carried out again. -/
  | wait
  deriving DecidableEq, Repr

/-- How often a turn was taken. -/
def Counters.turns (c : Counters) : Turn → Nat
  | .jump => c.jumps
  | .call => c.calls
  | .ret => c.returns
  | .skip => c.skips
  | .wait => c.keyWaits

namespace Machine

/-- A word is the test of a condition that holds. -/
@[mk_iff]
inductive Skips (m : Machine) (w : Word) : Prop
  | equalsByte (form : w.Fits "3xkk") (holds : m.v[w.x].toNat = w.toNat % 256)
  | differsByte (form : w.Fits "4xkk") (holds : m.v[w.x].toNat ≠ w.toNat % 256)
  | equals (form : w.Fits "5xy0") (holds : m.v[w.x] = m.v[w.y])
  | differs (form : w.Fits "9xy0") (holds : m.v[w.x] ≠ m.v[w.y])
  | keyDown (form : w.Fits "Ex9E") (key : Nibble) (named : key.toNat = m.v[w.x].toNat % 16)
    (holds : m.keys[key] = true)
  | keyUp (form : w.Fits "ExA1") (key : Nibble) (named : key.toNat = m.v[w.x].toNat % 16)
    (holds : m.keys[key] = false)

/-- The turn that a word takes at the program counter, and the address to which it leads. A word that
takes none is followed by the next one. -/
@[mk_iff]
inductive Turns (d : Dialect) (m : Machine) (w : Word) : Turn → Nat → Prop
  | jump (form : w.Fits "1nnn") : Turns d m w .jump (w.toNat % 4096)
  | jumpOffset (form : w.Fits "Bnnn") (plain : d.jumping = false) :
    Turns d m w .jump ((w.toNat % 4096 + m.v[(0 : Nibble)].toNat) % 4096)
  | jumpFrom (form : w.Fits "Bnnn") (jumping : d.jumping = true) :
    Turns d m w .jump ((w.toNat % 256 + m.v[w.x].toNat) % 4096)
  | call (form : w.Fits "2nnn") : Turns d m w .call (w.toNat % 4096)
  | ret (form : w.Fits "00EE") : Turns d m w .ret m.stack[BitVec.ofNat 4 (m.sp - 1)].toNat
  | skip (skips : m.Skips w) : Turns d m w .skip ((m.pc.toNat + 4) % 4096)
  | wait (form : w.Fits "Fx0A") (up : ∀ k : Nibble, m.keys[k] = false) : Turns d m w .wait m.pc.toNat

/-- The turn that an instruction takes at the program counter, and the address to which it leads. -/
def turn? (d : Dialect) (m : Machine) : Instruction → Option (Turn × Addr)
  | .jump nnn => some (.jump, nnn)
  | .jumpOffset nnn =>
    some (.jump,
      if d.jumping then
        (nnn.setWidth 8).setWidth 12 + (m.v[(nnn.extractLsb' 8 4 : Nibble)]).setWidth 12
      else nnn + (m.v[(0 : Nibble)]).setWidth 12)
  | .call nnn => some (.call, nnn)
  | .ret => some (.ret, m.stack[BitVec.ofNat 4 (m.sp - 1)])
  | .skip c => if m.holds c then some (.skip, m.pc + 4) else none
  | .awaitKey _ => if m.lowestKey? = none then some (.wait, m.pc) else none
  | _ => none

variable {s : Setup} {d : Dialect} {m next : Machine} {i : Instruction}

/-! ## Words and instructions take the same turns -/

/-- There is no lowest key exactly if none is down. -/
theorem lowestKey?_eq_none_iff : m.lowestKey? = none ↔ ∀ k : Nibble, m.keys[k] = false := by
  simp [lowestKey?, Nibble.mem_all]

/-- The key that a register names is that of its last four bits. -/
theorem exists_key_iff {b : Byte} {P : Nibble → Prop} :
    (∃ k : Nibble, k.toNat = b.toNat % 16 ∧ P k) ↔ P (b.setWidth 4) := by
  have named {k : Nibble} : k.toNat = b.toNat % 16 ↔ k = b.setWidth 4 := by
    rw [← BitVec.toNat_inj, BitVec.toNat_setWidth]
  simp only [named, exists_eq_left]

/-- The words that pass over the next instruction are those of conditions that hold. -/
theorem skips_encode_iff : m.Skips i.encode ↔ ∃ c, i = .skip c ∧ m.holds c = true := by
  rw [skips_iff]
  simp (disch := decide) only [Instruction.fits_encode_iff, ← Word.toNat_kk, exists_key_iff]
  cases i with
  | skip c =>
    cases c <;> simp [Instruction.form, Instruction.encode, holds, BitVec.toNat_inj]
  | arith op x y => cases op <;> simp [Instruction.form]
  | _ => simp [Instruction.form]

/-- **The word of an instruction takes the turn of the instruction.** -/
theorem turns_encode_iff {t : Turn} {a : Nat} :
    m.Turns d i.encode t a ↔ ∃ b, m.turn? d i = some (t, b) ∧ b.toNat = a := by
  rw [turns_iff, skips_encode_iff]
  simp (disch := decide) only [Instruction.fits_encode_iff, ← Word.toNat_kk, ← Word.toNat_nnn,
    ← lowestKey?_eq_none_iff, @eq_comm _ t, @eq_comm _ a]
  cases i with
  | skip c =>
    cases holds : m.holds c with
    | true => cases c <;> simp [Instruction.form, turn?, holds]
    | false => cases c <;> simp [Instruction.form, turn?, holds]
  | jumpOffset nnn =>
    cases jumping : d.jumping <;> simp [Instruction.form, Instruction.encode, turn?, jumping]
  | arith op x y => cases op <;> simp [Instruction.form, turn?]
  | _ => simp [Instruction.form, Instruction.encode, turn?, and_assoc]

/-! ## What a turn does -/

/-- A condition does not look at the program counter. -/
theorem holds_advance (m : Machine) (c : Condition) : m.advance.holds c = m.holds c := by
  cases c <;> rfl

/-- **A turn leads to its address**, and where none is taken the next instruction follows. -/
theorem pc_of_perform (performed : m.advance.perform s i = .ok next) :
    next.pc = ((m.turn? s.dialect i).map (·.2)).getD (m.pc + 2) := by
  cases i with
  | skip c =>
    simp only [perform, holds_advance] at performed
    cases holds : m.holds c with
    | true =>
      rw [holds] at performed
      cases performed
      simp only [turn?, holds, if_true, Option.map_some, Option.getD_some]
      exact BitVec.add_assoc m.pc 2 2
    | false =>
      rw [holds] at performed
      cases performed
      simp only [turn?, holds, Bool.false_eq_true, if_false]
      rfl
  | awaitKey x =>
    simp only [perform] at performed
    have lowest : m.advance.lowestKey? = m.lowestKey? := rfl
    rw [lowest] at performed
    cases down : m.lowestKey? with
    | none =>
      rw [down] at performed
      cases performed
      simp only [turn?, down, if_true, Option.map_some, Option.getD_some]
      exact here_advance m
    | some k =>
      rw [down] at performed
      cases performed
      simp only [turn?, down]
      rfl
  | call | ret =>
    simp only [perform] at performed
    split at performed
    · cases performed
    · cases performed
      rfl
  | _ =>
    cases performed
    rfl

/-- Gains of turns add up. -/
theorem turns_add (a b : Counters) (t : Turn) : (a + b).turns t = a.turns t + b.turns t := by
  cases t <;> rfl

/-- The turn of an instruction is what it adds to the counters of turns. -/
theorem turns_gain (d : Dialect) (m : Machine) (i : Instruction) (t : Turn) :
    (m.gain d i).turns t = if (m.turn? d i).map (·.1) = some t then 1 else 0 := by
  cases i with
  | skip c =>
    cases holds : m.holds c with
    | true => cases t <;> simp [gain, turn?, Counters.turns, holds]
    | false => cases t <;> simp [gain, turn?, Counters.turns, holds]
  | awaitKey x =>
    cases down : m.lowestKey? with
    | none => cases t <;> simp [gain, turn?, Counters.turns, down]
    | some k => cases t <;> simp [gain, turn?, Counters.turns, down]
  | _ => cases t <;> rfl

/-- **Where a step goes.** -/
theorem step_turn (done : (m.step s).fault? = none) :
    ∃ i, m.word = i.encode ∧
      (m.step s).machine.pc = ((m.turn? s.dialect i).map (·.2)).getD (m.pc + 2) ∧
      ∀ t, (m.step s).machine.counters.turns t =
        m.counters.turns t + if (m.turn? s.dialect i).map (·.1) = some t then 1 else 0 := by
  obtain ⟨i, next, decoded, performed, same⟩ := step_of_success done
  refine ⟨i, Instruction.decode?_eq_some_iff.mp decoded, ?_, fun t => ?_⟩
  · have leads : next.count.pc = next.pc := rfl
    rw [same, leads]
    exact pc_of_perform performed
  · have counted := perform_counters performed
    rw [gain_advance] at counted
    have kept : next.count.counters.turns t = next.counters.turns t := by cases t <;> rfl
    have before : m.advance.counters.turns t = m.counters.turns t := rfl
    rw [same, kept, counted, turns_add, turns_gain, before]

/-- **Every word goes where its form says.** For a step that meets no fault: a word that takes a turn
leads to the address of the turn, and after one that takes none the program counter is two further,
modulo 4096. Each turn is counted by one when it is taken, and not otherwise. What decides about the
turn is the state before the step and the word at the program counter, high byte first. -/
theorem step_successor (s : Setup) (m : Machine) (done : (m.step s).fault? = none) :
    let next := (m.step s).machine
    let turns := m.Turns s.dialect m.word
    m.word.toNat = 256 * m.memory[m.pc].toNat + m.memory[m.pc + 1].toNat ∧
      (∀ t a, turns t a → next.pc.toNat = a) ∧
      ((∀ t a, ¬ turns t a) → next.pc.toNat = (m.pc.toNat + 2) % 4096) ∧
      ∀ t,
        ((∃ a, turns t a) → next.counters.turns t = m.counters.turns t + 1) ∧
          ((∀ a, ¬ turns t a) → next.counters.turns t = m.counters.turns t) := by
  intro next turns
  obtain ⟨i, fetched, leads, counted⟩ := step_turn done
  have taken {t : Turn} {a : Nat} :
      turns t a ↔ ∃ b, m.turn? s.dialect i = some (t, b) ∧ b.toNat = a := by
    unfold turns
    rw [fetched]
    exact turns_encode_iff
  refine ⟨m.toNat_word, ?_, ?_, fun t => ⟨?_, ?_⟩⟩
  · intro t a turn
    obtain ⟨b, found, rfl⟩ := taken.mp turn
    rw [leads, found]
    rfl
  · intro straight
    have none : m.turn? s.dialect i = none := by
      refine Option.eq_none_iff_forall_ne_some.mpr fun (t, b) found => ?_
      exact straight t b.toNat (taken.mpr ⟨b, found, rfl⟩)
    rw [leads, none]
    exact BitVec.toNat_add m.pc 2
  · rintro ⟨a, turn⟩
    obtain ⟨b, found, -⟩ := taken.mp turn
    rw [counted, found, Option.map_some, if_pos rfl]
  · intro other
    have idle : (m.turn? s.dialect i).map (·.1) ≠ some t := by
      intro some
      obtain ⟨⟨_, b⟩, found, rfl⟩ := Option.map_eq_some_iff.mp some
      exact other b.toNat (taken.mpr ⟨b, found, rfl⟩)
    rw [counted, if_neg idle, Nat.add_zero]

/-- A machine that is about to pass over an instruction; its word goes on from the last byte of
memory at the first. -/
def hurdle : Machine :=
  { empty with memory := .fill 0x30, v := .fill 0x30, pc := 0xFFF }

theorem step_successor_hurdle :
    (hurdle.step {}).fault? = none ∧ hurdle.Turns {} hurdle.word .skip 3 ∧
      (hurdle.step {}).machine.pc.toNat = 3 ∧
      (hurdle.step {}).machine.counters.turns .skip = 1 ∧
      (hurdle.step {}).machine.counters.turns .jump = 0 := by
  have fetched : hurdle.word = (Instruction.skip (.equalsByte 0 0x30)).encode := by
    simp [hurdle, word]
    decide
  have done : (hurdle.step {}).fault? = none := by
    rw [step_of_running rfl, fetched]
    rfl
  have turn {t : Turn} {a : Nat} : hurdle.Turns {} hurdle.word t a ↔ t = .skip ∧ a = 3 := by
    rw [fetched, turns_encode_iff]
    simp [turn?, holds, hurdle, eq_comm]
  obtain ⟨-, leads, -, counted⟩ := step_successor {} hurdle done
  have skips := turn.mpr ⟨rfl, rfl⟩
  refine ⟨done, skips, leads _ _ skips, (counted .skip).1 ⟨3, skips⟩, (counted .jump).2 fun a => ?_⟩
  rw [turn]
  rintro ⟨jump, -⟩
  cases jump

end Machine

end Cosmac
