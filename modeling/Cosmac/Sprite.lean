import Cosmac.Display
import Cosmac.Word

/-!
# Sprites

A sprite is a column of up to fifteen bytes, each a row of eight cells with the high bit leftmost.
Placed on the display it names a list of cells, and drawing it turns these over one after another.
A part that reaches past the right or the lower edge either comes in again at the opposite edge or
is cut off.
-/

namespace Cosmac

/-- What becomes of the part of a sprite that reaches past an edge. -/
inductive Edge where
  /-- It comes in again at the opposite edge. -/
  | wrap
  /-- It is cut off. -/
  | clip
  deriving DecidableEq, Repr

namespace Sprite

/-- The cell `dr` rows below and `dc` columns right of `origin`, unless it is cut off. -/
def place? (edge : Edge) (origin : Cell) (dr dc : Nat) : Option Cell :=
  if edge = .clip ∧
      (Display.height ≤ origin.row.toNat + dr ∨ Display.width ≤ origin.col.toNat + dc) then none
  else some ⟨origin.row + BitVec.ofNat 5 dr, origin.col + BitVec.ofNat 6 dc⟩

/-- The cells that the set bits of one row land on, from the left. -/
def rowCells (edge : Edge) (origin : Cell) (dr : Nat) (bits : Byte) : List Cell :=
  (List.range 8).filterMap fun dc =>
    if bits.getMsbD dc then place? edge origin dr dc else none

/-- The cells that the set bits of a sprite land on, row by row. -/
def cells (edge : Edge) (origin : Cell) (rows : List Byte) : List Cell :=
  rows.zipIdx.flatMap fun (bits, dr) => rowCells edge origin dr bits

/-- How many of `n` rows start on the display or wrap onto it. -/
def rowCount (edge : Edge) (origin : Cell) (n : Nat) : Nat :=
  match edge with
  | .wrap => n
  | .clip => min n (Display.height - origin.row.toNat)

end Sprite

/-- A display after some cells were turned over, and how many of them were on when their turn came. -/
structure Plotted where
  display : Display
  hits : Nat

/-- Turns one more cell over. -/
def Plotted.flip (p : Plotted) (c : Cell) : Plotted :=
  ⟨p.display.flip c, p.hits + if p.display[c] then 1 else 0⟩

/-- Turns cells over one after another. -/
def Display.plot (d : Display) (cs : List Cell) : Plotted :=
  cs.foldl Plotted.flip ⟨d, 0⟩

end Cosmac
