import Cosmac.Word
import Cosmac.Text.Hex
import Cosmac.Log

/-!
# Faults

What stops a machine. A fault knows the address of the instruction that caused it; `halted` is the
answer of a machine that has already stopped.
-/

namespace Cosmac

/-- Why an instruction could not be carried out. -/
inductive Fault where
  /-- The word at the address is no instruction. -/
  | unknown (word : Word) (site : Addr)
  /-- A call with no room left on the stack. -/
  | stackOverflow (site : Addr)
  /-- A return with nothing on the stack. -/
  | stackUnderflow (site : Addr)
  /-- The machine was stopped by an earlier fault. -/
  | halted
  deriving DecidableEq, Repr

/-- An address as messages show it. -/
def Addr.text (a : Addr) : String :=
  "0x" ++ Hex.upper 3 a.toNat

/-- An instruction word as messages show it. -/
def Word.text (w : Word) : String :=
  "0x" ++ Hex.upper 4 w.toNat

namespace Fault

/-- What the user is told. -/
def message : Fault → String
  | unknown word site => "Unimplemented instruction " ++ word.text ++ " at PC=" ++ site.text
  | stackOverflow site => "Stack overflow at PC=" ++ site.text ++ " (depth 16)"
  | stackUnderflow site => "RET with empty stack at PC=" ++ site.text
  | halted => "Emulator has crashed and cannot execute further instructions"

/-- The line that tells the user of the end of a run. -/
def announcement (f : Fault) : String :=
  "Emulator crashed: " ++ f.message

end Fault

/-- A fault that was met, and the machine as it stood at that moment: whatever had been written
before the fault is in it. -/
structure Refusal (M : Type) where
  fault : Fault
  machine : M

/-- What comes of an instruction: the machine after it, or the refusal. -/
abbrev Attempt (M : Type) := Except (Refusal M) M

/-- The same attempt with another view of the machine. -/
def Attempt.view {M N : Type} (f : M → N) : Attempt M → Attempt N
  | .ok next => .ok (f next)
  | .error r => .error ⟨r.fault, f r.machine⟩

end Cosmac
