import Cosmac.Table

/-!
# The display

Sixty-four columns by thirty-two rows of cells that are on or off. A cell is named by its row and
its column, each a word of exactly the size of the display, so every name is a cell. Lists of cells
are in reading order: row by row from the top, each row from the left.
-/

namespace Cosmac

/-- A place on the display. -/
structure Cell where
  row : BitVec 5
  col : BitVec 6
  deriving DecidableEq, Repr

/-- The cell stands before the other one in reading order. -/
def Cell.Before (c e : Cell) : Prop :=
  c.row < e.row ∨ (c.row = e.row ∧ c.col < e.col)

theorem Cell.Before.ne {c e : Cell} (before : c.Before e) : c ≠ e := by
  rintro rfl
  obtain lt | ⟨-, lt⟩ := before <;> exact BitVec.lt_irrefl _ lt

/-- Which cells are on. -/
structure Display where
  rows : Table 5 (Table 6 Bool)
  deriving DecidableEq

namespace Display

/-- The number of columns. -/
def width : Nat := 64

/-- The number of rows. -/
def height : Nat := 32

/-- The display with every cell off. -/
def blank : Display :=
  ⟨.fill (.fill false)⟩

instance : GetElem Display Cell Bool fun _ _ => True where
  getElem d c _ := d.rows[c.row][c.col]

/-- The display with one cell made `on`. -/
def set (d : Display) (c : Cell) (on : Bool) : Display :=
  ⟨d.rows.set c.row (d.rows[c.row].set c.col on)⟩

/-- The display with one cell turned over. -/
def flip (d : Display) (c : Cell) : Display :=
  d.set c !d[c]

/-- The cells of one row. -/
def row (d : Display) (r : BitVec 5) : List Bool :=
  d.rows[r].toList

/-- The rows from the top. -/
def toLists (d : Display) : List (List Bool) :=
  d.rows.toList.map Table.toList

/-- Every cell, in reading order. -/
def cells : List Cell :=
  (Table.indices 5).flatMap fun r => (Table.indices 6).map fun c => ⟨r, c⟩

/-- The cells that are on, in reading order. -/
def lit (d : Display) : List Cell :=
  cells.filter fun c => d[c]

theorem getElem_def (d : Display) (c : Cell) : d[c] = d.rows[c.row][c.col] := rfl

@[simp] theorem getElem_blank (c : Cell) : blank[c] = false := by
  simp [blank, getElem_def]

/-- Setting a cell is seen at that cell and nowhere else. -/
theorem getElem_set (d : Display) (c e : Cell) (on : Bool) :
    (d.set c on)[e] = if e = c then on else d[e] := by
  obtain ⟨cr, cc⟩ := c
  obtain ⟨er, ec⟩ := e
  by_cases hr : er = cr
  · subst hr
    by_cases hc : ec = cc <;> simp [set, getElem_def, Table.getElem_set, hc]
  · simp [set, getElem_def, Table.getElem_set, hr]

/-- Turning a cell over changes that cell and no other. -/
theorem getElem_flip (d : Display) (c e : Cell) :
    (d.flip c)[e] = if e = c then !d[e] else d[e] := by
  unfold flip
  rw [getElem_set]
  split <;> simp_all

/-- Every cell is in the list of cells. -/
theorem mem_cells (c : Cell) : c ∈ cells :=
  List.mem_flatMap.mpr
    ⟨c.row, Table.mem_indices _, List.mem_map.mpr ⟨c.col, Table.mem_indices _, rfl⟩⟩

/-- The cells are listed in reading order. -/
theorem pairwise_cells : cells.Pairwise Cell.Before := by
  apply List.pairwise_flatMap.mpr
  refine ⟨fun r _ => List.pairwise_map.mpr ?_, ?_⟩
  · exact Table.pairwise_indices.imp fun lt => .inr ⟨rfl, lt⟩
  · refine Table.pairwise_indices.imp fun lt c hc e he => .inl ?_
    obtain ⟨_, _, rfl⟩ := List.mem_map.mp hc
    obtain ⟨_, _, rfl⟩ := List.mem_map.mp he
    exact lt

/-- No cell is listed twice. -/
theorem nodup_cells : cells.Nodup :=
  pairwise_cells.imp Cell.Before.ne

/-- The lit cells are those that are on. -/
theorem mem_lit {d : Display} {c : Cell} : c ∈ d.lit ↔ d[c] = true := by
  simp [lit, mem_cells]

/-- The lit cells are listed row by row, from left to right. -/
theorem pairwise_lit (d : Display) : d.lit.Pairwise Cell.Before :=
  pairwise_cells.filter _

theorem lit_blank : blank.lit = [] := by
  simp [lit]

/-- Displays that agree at every cell are equal. -/
@[ext] theorem ext {d e : Display} (h : ∀ c : Cell, d[c] = e[c]) : d = e := by
  obtain ⟨d⟩ := d
  obtain ⟨e⟩ := e
  congr 1
  ext r c
  exact h ⟨r, c⟩

end Display

end Cosmac
