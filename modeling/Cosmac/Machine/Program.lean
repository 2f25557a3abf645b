import Cosmac.Machine.Execute

/-!
# Programs

A program is at most 3584 bytes, which go into memory from address `0x200` on. It comes as bytes or
as a list of numbers whose element type is known; numbers have to be whole and to fit a byte. The
pictures of the sixteen digits stand at the start of memory.
-/

namespace Cosmac

/-- A program before it is checked. -/
inductive Program where
  | bytes (content : List Byte)
  /-- Numbers of some whole-number type. -/
  | integers (values : List Int)
  /-- Values of another element type, which goes by the given name. -/
  | other (elementType : String)
  deriving DecidableEq, Repr

/-- Why a program was refused. -/
inductive Program.Error where
  | notIntegers (elementType : String)
  | outOfRange
  | tooLarge (size : Nat)
  deriving DecidableEq, Repr

namespace Program

/-- The room for a program. -/
def maxSize : Nat := 3584

/-- What the user is told. -/
def Error.message : Error → String
  | notIntegers elementType => "ROM image must hold integers, got dtype " ++ elementType
  | outOfRange => "ROM image values must be in range 0x00-0xFF"
  | tooLarge size =>
    "ROM too large: " ++ toString size ++ " bytes, max " ++ toString maxSize

/-- The bytes of a program. -/
def toBytes? : Program → Except Error (List Byte)
  | bytes content => .ok content
  | integers values =>
    if values.all fun n => decide (0 ≤ n ∧ n ≤ 255) then .ok (values.map (BitVec.ofInt 8))
    else .error .outOfRange
  | other elementType => .error (.notIntegers elementType)

end Program

namespace Machine

/-- The pictures of the digits `0` to `F`, five rows of four cells each. -/
def font : List Byte :=
  [0xF0, 0x90, 0x90, 0x90, 0xF0,
   0x20, 0x60, 0x20, 0x20, 0x70,
   0xF0, 0x10, 0xF0, 0x80, 0xF0,
   0xF0, 0x10, 0xF0, 0x10, 0xF0,
   0x90, 0x90, 0xF0, 0x10, 0x10,
   0xF0, 0x80, 0xF0, 0x10, 0xF0,
   0xF0, 0x80, 0xF0, 0x90, 0xF0,
   0xF0, 0x10, 0x20, 0x40, 0x40,
   0xF0, 0x90, 0xF0, 0x90, 0xF0,
   0xF0, 0x90, 0xF0, 0x10, 0xF0,
   0xF0, 0x90, 0xF0, 0x90, 0x90,
   0xE0, 0x90, 0xE0, 0x90, 0xE0,
   0xF0, 0x80, 0x80, 0x80, 0xF0,
   0xE0, 0x90, 0x90, 0x90, 0xE0,
   0xF0, 0x80, 0xF0, 0x80, 0xF0,
   0xF0, 0x80, 0xF0, 0x80, 0x80]

/-- A machine with a program in memory, ready to start, and the size of the program. -/
def boot (p : Program) : Except Program.Error (Machine × Nat) := do
  let content ← p.toBytes?
  if Program.maxSize < content.length then .error (.tooLarge content.length)
  else
    let memory := (empty.memory.write 0 font).write programStart content
    .ok ({ empty with memory }, content.length)

/-- A machine that was given a program is empty apart from its memory. -/
theorem exists_memory_of_boot {program : Program} {m : Machine} {size : Nat}
    (booted : boot program = .ok (m, size)) : ∃ memory, m = { empty with memory } := by
  unfold boot at booted
  cases read : program.toBytes? with
  | error e =>
    rw [read] at booted
    cases booted
  | ok content =>
    simp only [read, bind, Except.bind] at booted
    split at booted
    · cases booted
    · cases booted
      exact ⟨_, rfl⟩

end Machine

end Cosmac
