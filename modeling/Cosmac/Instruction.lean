import Cosmac.Word

/-!
# Instructions

The instruction set as a type, and its encoding in sixteen-bit words. `decode?` reads a word and
refuses one that is no encoding; `encode` writes an instruction back.

In the encodings `x` and `y` name registers, `n` is a four-bit, `kk` an eight-bit and `nnn` a
twelve-bit operand.
-/

namespace Cosmac

/-- The operations on two registers, `8xy0` to `8xy7` and `8xyE`. -/
inductive Arith where
  | copy
  | or
  | and
  | xor
  | add
  | sub
  | shiftRight
  | subFrom
  | shiftLeft
  deriving DecidableEq, Repr

/-- What a skip instruction tests. -/
inductive Condition where
  | equalsByte (x : Nibble) (kk : Byte)
  | differsByte (x : Nibble) (kk : Byte)
  | equals (x y : Nibble)
  | differs (x y : Nibble)
  | keyDown (x : Nibble)
  | keyUp (x : Nibble)
  deriving DecidableEq, Repr

/-- What the machine can be told to do. -/
inductive Instruction where
  /-- Turns every cell of the display off, `00E0`. -/
  | clear
  /-- Goes back to the address on top of the stack, `00EE`. -/
  | ret
  /-- Goes to `nnn`, `1nnn`. -/
  | jump (nnn : Addr)
  /-- Goes to `nnn` and leaves the way back on the stack, `2nnn`. -/
  | call (nnn : Addr)
  /-- Passes over the next instruction if the condition holds. -/
  | skip (c : Condition)
  /-- Sets a register, `6xkk`. -/
  | load (x : Nibble) (kk : Byte)
  /-- Adds to a register and leaves the flag alone, `7xkk`. -/
  | add (x : Nibble) (kk : Byte)
  /-- Combines two registers, `8xyn`. -/
  | arith (op : Arith) (x y : Nibble)
  /-- Sets the index, `Annn`. -/
  | setIndex (nnn : Addr)
  /-- Goes to an address offset by a register, `Bnnn`. -/
  | jumpOffset (nnn : Addr)
  /-- Sets a register to a random byte under a mask, `Cxkk`. -/
  | random (x : Nibble) (kk : Byte)
  /-- Draws a sprite of `n` rows, `Dxyn`. -/
  | draw (x y n : Nibble)
  /-- Reads the delay timer, `Fx07`. -/
  | readDelay (x : Nibble)
  /-- Waits for a key, `Fx0A`. -/
  | awaitKey (x : Nibble)
  /-- Sets the delay timer, `Fx15`. -/
  | setDelay (x : Nibble)
  /-- Sets the sound timer, `Fx18`. -/
  | setSound (x : Nibble)
  /-- Moves the index on by a register, `Fx1E`. -/
  | addIndex (x : Nibble)
  /-- Points the index at the picture of a digit, `Fx29`. -/
  | glyph (x : Nibble)
  /-- Writes the three decimal digits of a register to memory, `Fx33`. -/
  | digits (x : Nibble)
  /-- Writes the registers up to `x` to memory, `Fx55`. -/
  | store (x : Nibble)
  /-- Reads the registers up to `x` from memory, `Fx65`. -/
  | fetch (x : Nibble)
  deriving DecidableEq, Repr

namespace Word

/-- The top four bits, which tell the families of instructions apart. -/
def family (w : Word) : Nibble := w.extractLsb' 12 4

/-- The operand `x`. -/
def x (w : Word) : Nibble := w.extractLsb' 8 4

/-- The operand `y`. -/
def y (w : Word) : Nibble := w.extractLsb' 4 4

/-- The operand `n`. -/
def n (w : Word) : Nibble := w.extractLsb' 0 4

/-- The operand `kk`. -/
def kk (w : Word) : Byte := w.extractLsb' 0 8

/-- The operand `nnn`. -/
def nnn (w : Word) : Addr := w.extractLsb' 0 12

end Word

namespace Arith

/-- The operation that the last four bits of an `8xyn` word name. -/
def ofNibble? : Nibble → Option Arith
  | 0x0#4 => some .copy
  | 0x1#4 => some .or
  | 0x2#4 => some .and
  | 0x3#4 => some .xor
  | 0x4#4 => some .add
  | 0x5#4 => some .sub
  | 0x6#4 => some .shiftRight
  | 0x7#4 => some .subFrom
  | 0xE#4 => some .shiftLeft
  | _ => none

/-- The last four bits that name an operation. -/
def toNibble : Arith → Nibble
  | copy => 0x0
  | or => 0x1
  | and => 0x2
  | xor => 0x3
  | add => 0x4
  | sub => 0x5
  | shiftRight => 0x6
  | subFrom => 0x7
  | shiftLeft => 0xE

@[simp] theorem ofNibble?_toNibble (op : Arith) : ofNibble? op.toNibble = some op := by
  cases op <;> rfl

end Arith

namespace Instruction

/-- The instruction that a word of the `Fxkk` family encodes. -/
def ofDeviceCode? (x : Nibble) : Byte → Option Instruction
  | 0x07#8 => some (.readDelay x)
  | 0x0A#8 => some (.awaitKey x)
  | 0x15#8 => some (.setDelay x)
  | 0x18#8 => some (.setSound x)
  | 0x1E#8 => some (.addIndex x)
  | 0x29#8 => some (.glyph x)
  | 0x33#8 => some (.digits x)
  | 0x55#8 => some (.store x)
  | 0x65#8 => some (.fetch x)
  | _ => none

/-- The instruction that a word encodes, if it encodes one. -/
def decode? (w : Word) : Option Instruction :=
  match w.family with
  | 0x0#4 =>
    if w = 0x00E0#16 then some .clear
    else if w = 0x00EE#16 then some .ret
    else none
  | 0x1#4 => some (.jump w.nnn)
  | 0x2#4 => some (.call w.nnn)
  | 0x3#4 => some (.skip (.equalsByte w.x w.kk))
  | 0x4#4 => some (.skip (.differsByte w.x w.kk))
  | 0x5#4 => if w.n = 0 then some (.skip (.equals w.x w.y)) else none
  | 0x6#4 => some (.load w.x w.kk)
  | 0x7#4 => some (.add w.x w.kk)
  | 0x8#4 => (Arith.ofNibble? w.n).map fun op => .arith op w.x w.y
  | 0x9#4 => if w.n = 0 then some (.skip (.differs w.x w.y)) else none
  | 0xA#4 => some (.setIndex w.nnn)
  | 0xB#4 => some (.jumpOffset w.nnn)
  | 0xC#4 => some (.random w.x w.kk)
  | 0xD#4 => some (.draw w.x w.y w.n)
  | 0xE#4 =>
    if w.kk = 0x9E then some (.skip (.keyDown w.x))
    else if w.kk = 0xA1 then some (.skip (.keyUp w.x))
    else none
  | _ => ofDeviceCode? w.x w.kk

/-- The word of an instruction with a twelve-bit operand. -/
def wordOfAddr (family : Nibble) (nnn : Addr) : Word := family ++ nnn

/-- The word of an instruction with a register and an eight-bit operand. -/
def wordOfByte (family x : Nibble) (kk : Byte) : Word := family ++ (x ++ kk)

/-- The word of an instruction with three four-bit operands. -/
def wordOfNibbles (family x y n : Nibble) : Word := family ++ (x ++ (y ++ n))

/-- The word that encodes an instruction. -/
def encode : Instruction → Word
  | clear => 0x00E0
  | ret => 0x00EE
  | jump nnn => wordOfAddr 0x1 nnn
  | call nnn => wordOfAddr 0x2 nnn
  | skip (.equalsByte x kk) => wordOfByte 0x3 x kk
  | skip (.differsByte x kk) => wordOfByte 0x4 x kk
  | skip (.equals x y) => wordOfNibbles 0x5 x y 0
  | load x kk => wordOfByte 0x6 x kk
  | add x kk => wordOfByte 0x7 x kk
  | arith op x y => wordOfNibbles 0x8 x y op.toNibble
  | skip (.differs x y) => wordOfNibbles 0x9 x y 0
  | setIndex nnn => wordOfAddr 0xA nnn
  | jumpOffset nnn => wordOfAddr 0xB nnn
  | random x kk => wordOfByte 0xC x kk
  | draw x y n => wordOfNibbles 0xD x y n
  | skip (.keyDown x) => wordOfByte 0xE x 0x9E
  | skip (.keyUp x) => wordOfByte 0xE x 0xA1
  | readDelay x => wordOfByte 0xF x 0x07
  | awaitKey x => wordOfByte 0xF x 0x0A
  | setDelay x => wordOfByte 0xF x 0x15
  | setSound x => wordOfByte 0xF x 0x18
  | addIndex x => wordOfByte 0xF x 0x1E
  | glyph x => wordOfByte 0xF x 0x29
  | digits x => wordOfByte 0xF x 0x33
  | store x => wordOfByte 0xF x 0x55
  | fetch x => wordOfByte 0xF x 0x65

end Instruction

end Cosmac
