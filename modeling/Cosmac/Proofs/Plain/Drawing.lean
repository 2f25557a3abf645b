import Cosmac.Proofs.Plain.Image
import Cosmac.Proofs.Drawing

/-!
# A sprite drawn bit by bit

The loops that draw a sprite turn one cell over at a time and stop early at an edge that cuts off.
What they come to is a plot: `Machine.plot` puts a list of cells on the display at once, plots
follow one another like lists, and the loop over some columns or rows is the plot of the cells
that are still to come. So a whole draw is the draw of the machine.
-/

namespace Cosmac

open Checked

namespace Machine

/-- The registers after so many cells were hit. -/
def raiseFlag (hits : Nat) (v : Table 4 Byte) : Table 4 Byte :=
  if 0 < hits then v.set flag 1 else v

/-- Raising the flag for two stretches of hits is raising it for both together. -/
theorem raiseFlag_raiseFlag (a b : Nat) (v : Table 4 Byte) :
    raiseFlag b (raiseFlag a v) = raiseFlag (a + b) v := by
  rcases Nat.eq_zero_or_pos a with rfl | ha
  · simp [raiseFlag]
  · rw [raiseFlag, raiseFlag, raiseFlag, if_pos ha, if_pos (Nat.add_pos_left ha b), Table.set_set,
      ite_self]

/-- The machine after some rows of a sprite were looked at and some cells turned over. -/
def plot (m : Machine) (cs : List Cell) (rows : Nat) : Machine :=
  { m with
    display := (m.display.plot cs).display
    v := raiseFlag (m.display.plot cs).hits m.v
    dirty := m.dirty || !cs.isEmpty
    counters := { m.counters with
      reads := m.counters.reads + rows
      collisions := m.counters.collisions + (m.display.plot cs).hits } }

variable (m : Machine) (cs es : List Cell) (j k : Nat)

/-- Plotting nothing changes nothing. -/
theorem plot_nil : m.plot [] 0 = m := by
  simp [plot, Display.plot, raiseFlag]

/-- **Plots follow one another like lists.** -/
theorem plot_plot : (m.plot cs j).plot es k = m.plot (cs ++ es) (j + k) := by
  have drawn : (m.dirty || !cs.isEmpty || !es.isEmpty) = (m.dirty || !(cs ++ es).isEmpty) := by
    cases cs <;> simp
  simp only [plot, Display.plot_append, raiseFlag_raiseFlag, drawn, Nat.add_assoc]

/-- A draw clears the flag, plots the cells of the sprite and is counted. -/
theorem drawSprite_eq_plot (d : Dialect) (x y n : Nibble) :
    let rows := Sprite.rowCount (edge d) (m.corner x y) n.toNat
    m.drawSprite d x y n =
      ((m.setReg flag 0).plot (m.spriteCells d x y n) rows).tally
        fun c => { c with draws := c.draws + 1 } := by
  intro rows
  have flagged (hits : Nat) : raiseFlag hits (m.v.set flag 0) =
      m.v.set flag (if 0 < hits then 1 else 0) := by
    unfold raiseFlag
    split
    · exact Table.set_set m.v flag 0 1
    · rfl
  simp only [plot, setReg, flagged]
  rfl

end Machine

namespace Plain

variable (m : Machine)

/-- Turning over one cell comes to the same on the plain side. -/
theorem turnOver_ofMachine (c : Cell) :
    (ofMachine m).turnOver c.row.toNat c.col.toNat = .ok (ofMachine (m.plot [c] 0)) := by
  have row : load (ofMachine m).display c.row.toNat = .ok (ofRow m.display.rows[c.row]) :=
    Table.load_image ofRow m.display.rows c.row
  have cell : load (ofRow m.display.rows[c.row]) c.col.toNat = .ok m.display[c] :=
    Table.load_image (fun on => on) m.display.rows[c.row] c.col
  have raised : (ofMachine m).setFlagIf m.display[c] 1 =
      .ok (ofMachine { m with v := if m.display[c] then m.v.set Machine.flag 1 else m.v }) :=
    setFlagIf_ofMachine m _ 1
  have turned : put (ofRow m.display.rows[c.row]) c.col.toNat (!m.display[c]) =
      .ok (ofRow (m.display.rows[c.row].set c.col !m.display[c])) :=
    Table.put_image (fun on => on) m.display.rows[c.row] c.col _
  have back : put (ofMachine m).display c.row.toNat
      (ofRow (m.display.rows[c.row].set c.col !m.display[c])) =
      .ok ((m.display.flip c).rows.image ofRow) :=
    Table.put_image ofRow m.display.rows c.row _
  rw [turnOver, row, bind_ok, cell, bind_ok, raised, bind_ok, turned, bind_ok]
  show (put (ofMachine m).display _ _ >>= _) = _
  rw [back, bind_ok]
  cases h : m.display[c] <;>
    simp [ofMachine, Machine.plot, Machine.raiseFlag, Display.plot, Plotted.flip, h]

/-- A bit that is not set turns nothing over. -/
theorem turnOverIf_ofMachine (bit : Bool) (c : Cell) :
    (ofMachine m).turnOverIf bit c.row.toNat c.col.toNat =
      .ok (ofMachine (m.plot (if bit then [c] else []) 0)) := by
  cases bit with
  | true => exact turnOver_ofMachine m c
  | false =>
    simp only [Bool.false_eq_true, if_false, Machine.plot_nil]
    rfl

/-- The cells that the bits in the given columns of a byte fall on. -/
def columnCells (d : Dialect) (origin : Cell) (dr : Nat) (bits : Byte) (columns : List Nat) :
    List Cell :=
  columns.filterMap fun dc =>
    if bits.getMsbD dc then Sprite.place? (Machine.edge d) origin dr dc else none

/-- Past a right edge that cuts off, no bit falls on a cell. -/
theorem columnCells_past {d : Dialect} (clips : d.clipping) {origin : Cell} {j : Nat}
    (past : 64 ≤ origin.col.toNat + j) (dr : Nat) (bits : Byte) (k : Nat) :
    columnCells d origin dr bits (List.range' j k) = [] := by
  apply List.filterMap_eq_nil_iff.mpr
  intro dc hdc
  have hj := (List.mem_range'_1.mp hdc).1
  have cut : Sprite.place? (Machine.edge d) origin dr dc = none :=
    if_pos ⟨if_pos clips, .inr (by simp only [Display.width]; omega)⟩
  rw [cut, ite_self]

/-- A bit that is not past an edge that cuts off has a place. -/
theorem exists_place {d : Dialect} {origin : Cell} {dr dc : Nat}
    (inside : d.clipping → origin.row.toNat + dr < 32)
    (kept : ¬ (64 ≤ origin.col.toNat + dc ∧ d.clipping)) :
    ∃ c, Sprite.place? (Machine.edge d) origin dr dc = some c := by
  refine ⟨_, if_neg ?_⟩
  rintro ⟨clips, past⟩
  have clips : d.clipping = true := by
    simpa [Machine.edge] using clips
  have := inside clips
  have : ¬ 64 ≤ origin.col.toNat + dc := fun far => kept ⟨far, clips⟩
  simp only [Display.height, Display.width] at past
  omega

/-- Some bits of a row come to the same on the plain side, as long as the row is inside. -/
theorem drawColumns_ofMachine (d : Dialect) (origin : Cell) {dr : Nat}
    (inside : d.clipping → origin.row.toNat + dr < 32) (bits : Byte) (j k : Nat)
    (narrow : j + k ≤ 8) :
    (ofMachine m).drawColumns d.clipping ((origin.row.toNat + dr) % 32) origin.col.toNat bits.toNat
        (List.range' j k) =
      .ok (ofMachine (m.plot (columnCells d origin dr bits (List.range' j k)) 0)) := by
  induction k generalizing m j with
  | zero => rw [List.range'_zero, drawColumns, columnCells, List.filterMap_nil, Machine.plot_nil]
  | succ k ih =>
    by_cases cut : 64 ≤ origin.col.toNat + j ∧ d.clipping
    · -- the loop stops here, and none of the columns that it leaves out has a place
      rw [columnCells_past cut.2 cut.1, Machine.plot_nil, List.range'_succ, drawColumns, if_pos cut]
    · have bit : bits.toNat.testBit (7 - j) = bits.getMsbD j := by
        simp [BitVec.getMsbD, BitVec.getLsbD, show j < 8 by omega]
      obtain ⟨c, placed⟩ := exists_place inside cut
      obtain ⟨-, row, col⟩ := Sprite.place?_eq_some_iff.mp placed
      have first : columnCells d origin dr bits (j :: List.range' (j + 1) k) =
          (if bits.getMsbD j then [c] else []) ++
            columnCells d origin dr bits (List.range' (j + 1) k) := by
        rw [columnCells, List.filterMap_cons, placed]
        cases bits.getMsbD j <;> rfl
      have turned := turnOverIf_ofMachine m (bits.getMsbD j) c
      rw [row, col] at turned
      rw [List.range'_succ, drawColumns, if_neg cut, bit, turned, bind_ok, ih _ _ (by omega),
        Machine.plot_plot, first]

/-- How many of `k` rows are looked at from row `r` on. -/
def rowsFrom (d : Dialect) (origin : Cell) (r k : Nat) : Nat :=
  if d.clipping then min k (32 - (origin.row.toNat + r)) else k

/-- The cells that the bits of these rows fall on. -/
def rowCellsFrom (d : Dialect) (origin : Cell) (r n : Nat) : List Cell :=
  (List.range' r n).flatMap fun dr =>
    Sprite.rowCells (Machine.edge d) origin dr m.memory[m.i + BitVec.ofNat 12 dr]

theorem rowsFrom_zero (d : Dialect) (origin : Cell) (n : Nat) :
    rowsFrom d origin 0 n = Sprite.rowCount (Machine.edge d) origin n := by
  unfold rowsFrom Machine.edge
  split <;> simp [Sprite.rowCount, Display.height]

/-- Past the lower edge of a display that clips there is no row left. -/
theorem rowsFrom_past {d : Dialect} {origin : Cell} {r : Nat}
    (cut : 32 ≤ origin.row.toNat + r ∧ d.clipping) (k : Nat) : rowsFrom d origin r k = 0 := by
  rw [rowsFrom, if_pos cut.2]
  omega

/-- A row inside the display is one more. -/
theorem rowsFrom_succ {d : Dialect} {origin : Cell} {r : Nat}
    (inside : d.clipping → origin.row.toNat + r < 32) (k : Nat) :
    rowsFrom d origin r (k + 1) = rowsFrom d origin (r + 1) k + 1 := by
  unfold rowsFrom
  split
  case isTrue clips =>
    have := inside clips
    omega
  case isFalse => rfl

theorem rowCellsFrom_zero (d : Dialect) (origin : Cell) (n : Nat) :
    rowCellsFrom m d origin 0 n = Sprite.cells (Machine.edge d) origin (m.memory.read m.i n) := by
  have rows : (m.memory.read m.i n).zipIdx =
      (List.range' 0 n).map fun dr => (m.memory[m.i + BitVec.ofNat 12 dr], dr) := by
    apply List.ext_getElem
    · simp
    · intro dr _ _
      simp [Table.getElem_read]
  rw [Sprite.cells, rows, List.flatMap_map]
  rfl

/-- The cells of the rows are those of the first row, then those of the rest. -/
theorem rowCellsFrom_succ (d : Dialect) (origin : Cell) (r n : Nat) :
    rowCellsFrom m d origin r (n + 1) =
      columnCells d origin r m.memory[m.i + BitVec.ofNat 12 r] (List.range' 0 8) ++
        rowCellsFrom m d origin (r + 1) n := by
  rw [rowCellsFrom, List.range'_succ, List.flatMap_cons, columnCells, ← List.range_eq_range']
  rfl

/-- Reading a row is counted alike. -/
theorem countRow_ofMachine : (ofMachine m).countRow = ofMachine (m.plot [] 1) := by
  simp [countRow, ofMachine, Machine.plot, Display.plot, Machine.raiseFlag]

/-- The rows of a sprite come to the same on the plain side, from whichever row on. -/
theorem drawRows_ofMachine (d : Dialect) (origin : Cell) (r k : Nat) :
    (ofMachine m).drawRows d.clipping origin.row.toNat origin.col.toNat (List.range' r k) =
      .ok (ofMachine (m.plot (rowCellsFrom m d origin r (rowsFrom d origin r k))
        (rowsFrom d origin r k))) := by
  induction k generalizing m r with
  | zero =>
    have none : rowsFrom d origin r 0 = 0 := by
      simp [rowsFrom]
    rw [none, List.range'_zero, drawRows]
    exact congrArg (Except.ok <| ofMachine ·) (Machine.plot_nil m).symm
  | succ k ih =>
    by_cases cut : 32 ≤ origin.row.toNat + r ∧ d.clipping
    · rw [rowsFrom_past cut, List.range'_succ, drawRows, if_pos cut]
      exact congrArg (Except.ok <| ofMachine ·) (Machine.plot_nil m).symm
    · have inside : d.clipping → origin.row.toNat + r < 32 := fun clips =>
        Nat.lt_of_not_le fun past => cut ⟨past, clips⟩
      rw [List.range'_succ, drawRows, if_neg cut, load_cell_ofMachine, bind_ok, countRow_ofMachine]
      show ((ofMachine (m.plot [] 1)).drawColumns _ _ origin.col.toNat _ _ >>= _) = _
      rw [drawColumns_ofMachine _ d origin inside _ 0 8 (by decide), bind_ok, ih]
      -- looking at a row and turning cells over leave memory and the index alone
      show Except.ok (ofMachine (((m.plot [] 1).plot (columnCells d origin r
        m.memory[m.i + BitVec.ofNat 12 r] _) 0).plot (rowCellsFrom m d origin (r + 1) _) _)) = _
      rw [Machine.plot_plot, Machine.plot_plot, rowsFrom_succ inside, rowCellsFrom_succ,
        List.nil_append, Nat.zero_add, Nat.add_comm 1]

/-- **A sprite drawn bit by bit is drawn at once.** -/
theorem draw_ofMachine (d : Dialect) (x y n : Nibble) :
    (ofMachine m).draw d.clipping x.toNat y.toNat n.toNat =
      .ok (ofMachine (m.drawSprite d x y n)) := by
  have row : m.v[y].toNat % 32 = (m.corner x y).row.toNat := by
    simp [Machine.corner]
  have col : m.v[x].toNat % 64 = (m.corner x y).col.toNat := by
    simp [Machine.corner]
  have cleared : (ofMachine m).setReg 15 0 = .ok (ofMachine (m.setReg Machine.flag 0)) :=
    setReg_ofMachine m Machine.flag 0
  rw [draw, reg_ofMachine, bind_ok, reg_ofMachine, bind_ok, cleared, bind_ok, row, col,
    drawRows_ofMachine, bind_ok, rowsFrom_zero, rowCellsFrom_zero, m.drawSprite_eq_plot]
  rfl

end Plain

end Cosmac
