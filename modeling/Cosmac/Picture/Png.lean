import Cosmac.Picture.Bitmap
import Cosmac.Word

/-!
# Images as files

The file of an image in the PNG format: eight bits a pixel, black as 0 and white as 255, every row
unfiltered and the data stored without compression.
-/

namespace Cosmac.Image.Png

/-- The bytes of a number, high ones first. -/
def big : (width n : Nat) → List Byte
  | 0, _ => []
  | width + 1, n => big width (n / 256) ++ [BitVec.ofNat 8 n]

/-- The bytes of a number, low ones first. -/
def little : (width n : Nat) → List Byte
  | 0, _ => []
  | width + 1, n => BitVec.ofNat 8 n :: little width (n / 256)

/-- One bit of the remainder that guards a chunk. -/
def remainderBit (r : BitVec 32) : BitVec 32 :=
  if r.getLsbD 0 then (r >>> 1) ^^^ 0xEDB88320 else r >>> 1

/-- The remainder after one more byte. -/
def remainderByte (r : BitVec 32) (b : Byte) : BitVec 32 :=
  (List.range 8).foldl (fun r _ => remainderBit r) (r ^^^ b.setWidth 32)

/-- The remainder of the division by the polynomial of the format, which guards a chunk. -/
def remainder (bytes : List Byte) : BitVec 32 :=
  ~~~ bytes.foldl remainderByte 0xFFFFFFFF

/-- The two sums that guard compressed data. -/
def sums (bytes : List Byte) : Nat :=
  let (a, b) := bytes.foldl
    (fun (a, b) byte =>
      let a := (a + byte.toNat) % 65521
      (a, (b + a) % 65521))
    (1, 0)
  b * 65536 + a

/-- A chunk: its size, its kind, its content and the remainder. -/
def chunk (kind : List Byte) (content : List Byte) : List Byte :=
  big 4 content.length ++ kind ++ content ++ big 4 (remainder (kind ++ content)).toNat

/-- The most bytes in a stored block. -/
def blockSize : Nat := 65535

/-- One stored block; the last one says so. -/
def block (isLast : Bool) (part : List Byte) : List Byte :=
  (if isLast then 1 else 0) :: little 2 part.length ++ little 2 (blockSize - part.length) ++ part

/-- Data in stored blocks. -/
def blocks (bytes : List Byte) : List Byte :=
  if blockSize < bytes.length then
    block false (bytes.take blockSize) ++ blocks (bytes.drop blockSize)
  else block true bytes
termination_by bytes.length
decreasing_by
  simp only [List.length_drop, blockSize] at *
  omega

/-- The pixels with the filter byte of every row. -/
def scanlines (m : Image) : List Byte :=
  m.pixels.flatMap fun row => 0 :: row.map fun white => if white then 255 else 0

/-- The bytes that every file of the format starts with. -/
def signature : List Byte :=
  [0x89, 0x50, 0x4E, 0x47, 0x0D, 0x0A, 0x1A, 0x0A]

/-- The file of an image. -/
def encode (m : Image) : List Byte :=
  let data := scanlines m
  signature ++
    chunk [0x49, 0x48, 0x44, 0x52] (big 4 m.width ++ big 4 m.height ++ [8, 0, 0, 0, 0]) ++
    chunk [0x49, 0x44, 0x41, 0x54] ([0x78, 0x01] ++ blocks data ++ big 4 (sums data)) ++
    chunk [0x49, 0x45, 0x4E, 0x44] []

end Cosmac.Image.Png
