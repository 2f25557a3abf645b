import Cosmac.Proofs.Plotting
import Cosmac.Proofs.Stepping

/-!
# Drawing is an exclusive or

A draw instruction puts a sprite on the display bit by bit. What it comes to is stated here without
an order: the sprite covers a set of cells, the mask, and drawing turns exactly these over.

`Machine.Covers` says in plain numbers which cells are covered: a bit in row `dr` and column `dc` of
the sprite falls on the cell that far from the corner, around the edges of the display or only
inside of them. `Machine.execute_draw` is the law. It rests on the fact that no cell is covered by
two bits, since a sprite is narrower and lower than the display: at most eight columns of
sixty-four and fifteen rows of thirty-two.
-/

namespace Cosmac

namespace Sprite

variable {edge : Edge} {origin : Cell}

/-- Where a place of a sprite falls, in numbers. -/
theorem place?_eq_some_iff {dr dc : Nat} {c : Cell} :
    place? edge origin dr dc = some c ↔
      (edge = .clip → origin.row.toNat + dr < 32 ∧ origin.col.toNat + dc < 64) ∧
        c.row.toNat = (origin.row.toNat + dr) % 32 ∧
        c.col.toNat = (origin.col.toNat + dc) % 64 := by
  have target : (⟨origin.row + BitVec.ofNat 5 dr, origin.col + BitVec.ofNat 6 dc⟩ : Cell) = c ↔
      c.row.toNat = (origin.row.toNat + dr) % 32 ∧
        c.col.toNat = (origin.col.toNat + dc) % 64 := by
    obtain ⟨row, col⟩ := c
    simp only [Cell.mk.injEq, ← BitVec.toNat_inj, BitVec.toNat_add, BitVec.toNat_ofNat]
    omega
  rw [← target]
  unfold place?
  split
  case isTrue cut =>
    obtain ⟨clip, past⟩ := cut
    simp only [Display.height, Display.width] at past
    constructor
    · intro h
      cases h
    · rintro ⟨inside, -⟩
      have := inside clip
      omega
  case isFalse kept =>
    rw [Option.some.injEq]
    refine ⟨fun h => ⟨fun clip => ?_, h⟩, And.right⟩
    have inside : ¬ (Display.height ≤ origin.row.toNat + dr ∨
        Display.width ≤ origin.col.toNat + dc) := fun past => kept ⟨clip, past⟩
    simp only [Display.height, Display.width] at inside
    omega

/-- A row covers the places of its bits that are set. -/
theorem mem_rowCells {dr : Nat} {bits : Byte} {c : Cell} :
    c ∈ rowCells edge origin dr bits ↔
      ∃ dc < 8, bits.getMsbD dc = true ∧ place? edge origin dr dc = some c := by
  simp only [rowCells, List.mem_filterMap, List.mem_range]
  constructor
  · rintro ⟨dc, hdc, h⟩
    obtain ⟨hbit, hplace⟩ := Option.ite_none_right_eq_some.mp h
    exact ⟨dc, hdc, hbit, hplace⟩
  · rintro ⟨dc, hdc, hbit, hplace⟩
    exact ⟨dc, hdc, by rw [if_pos hbit, hplace]⟩

/-- A sprite covers the cells of its rows. -/
theorem mem_cells {rows : List Byte} {c : Cell} :
    c ∈ cells edge origin rows ↔
      ∃ dr bits, rows[dr]? = some bits ∧ c ∈ rowCells edge origin dr bits := by
  simp only [cells, List.mem_flatMap, List.mem_zipIdx_iff_getElem?, Prod.exists]
  exact exists_comm.trans (by rfl)

/-- The bits of one row fall on distinct cells: eight columns do not reach around sixty-four. -/
theorem nodup_rowCells (dr : Nat) (bits : Byte) : (rowCells edge origin dr bits).Nodup := by
  apply List.pairwise_filterMap.mpr
  apply List.Pairwise.imp_of_mem _ List.nodup_range
  intro a b ha hb hne c hc e he heq
  subst heq
  have placedA := place?_eq_some_iff.mp (Option.ite_none_right_eq_some.mp hc).2
  have placedB := place?_eq_some_iff.mp (Option.ite_none_right_eq_some.mp he).2
  rw [List.mem_range] at ha hb
  omega

/-- The bits of a sprite fall on distinct cells as long as its rows do not reach around the
display. -/
theorem nodup_cells {rows : List Byte} (low : rows.length ≤ 32) :
    (cells edge origin rows).Nodup := by
  apply List.pairwise_flatMap.mpr
  refine ⟨fun ⟨bits, dr⟩ _ => nodup_rowCells dr bits, List.pairwise_iff_getElem.mpr ?_⟩
  intro i j hi hj hlt c hc e he heq
  subst heq
  simp only [List.length_zipIdx] at hi hj
  simp only [List.getElem_zipIdx, Nat.zero_add] at hc he
  obtain ⟨_, _, _, hc⟩ := mem_rowCells.mp hc
  obtain ⟨_, _, _, he⟩ := mem_rowCells.mp he
  have placedI := place?_eq_some_iff.mp hc
  have placedJ := place?_eq_some_iff.mp he
  omega

end Sprite

/-- An address counted on from another, around the end of memory. -/
theorem Addr.ofNat_toNat_add (a : Addr) (k : Nat) :
    BitVec.ofNat 12 ((a.toNat + k) % 4096) = a + BitVec.ofNat 12 k := by
  apply BitVec.eq_of_toNat_eq
  simp

namespace Machine

/-! ## The mask of a sprite -/

/-- The bit `dc` places from the left in row `dr` of the sprite at the index. -/
def spriteBit (m : Machine) (dr dc : Nat) : Bool :=
  m.memory[BitVec.ofNat 12 ((m.i.toNat + dr) % 4096)].getMsbD dc

/-- A place of the sprite whose corner two registers hold falls on a cell. -/
def FallsOn (d : Dialect) (m : Machine) (x y : Nibble) (dr dc : Nat) (c : Cell) : Prop :=
  let row := m.v[y].toNat % 32 + dr
  let col := m.v[x].toNat % 64 + dc
  (d.clipping → row < 32 ∧ col < 64) ∧ c.row.toNat = row % 32 ∧ c.col.toNat = col % 64

/-- A set bit of the sprite of `n` rows falls on a cell. -/
def Covers (d : Dialect) (m : Machine) (x y n : Nibble) (c : Cell) : Prop :=
  ∃ dr < n.toNat, ∃ dc < 8, m.spriteBit dr dc = true ∧ m.FallsOn d x y dr dc c

instance (d : Dialect) (m : Machine) (x y : Nibble) (dr dc : Nat) (c : Cell) :
    Decidable (m.FallsOn d x y dr dc c) :=
  inferInstanceAs (Decidable ((_ → _ ∧ _) ∧ _ ∧ _))

instance (d : Dialect) (m : Machine) (x y n : Nibble) (c : Cell) :
    Decidable (m.Covers d x y n c) :=
  inferInstanceAs (Decidable (∃ dr < n.toNat, ∃ dc < 8, _ ∧ m.FallsOn d x y dr dc c))

/-- The cells that a sprite covers, each once, in reading order. -/
def mask (d : Dialect) (m : Machine) (x y n : Nibble) : List Cell :=
  Display.cells.filter fun c => m.Covers d x y n c

/-- How many rows of a sprite are looked at: those that start past the lower edge are not when
sprites are cut off there. -/
def rowsDrawn (d : Dialect) (m : Machine) (y n : Nibble) : Nat :=
  if d.clipping then min n.toNat (32 - m.v[y].toNat % 32) else n.toNat

section Mask

variable (d : Dialect) (m : Machine) (x y n : Nibble)

/-- The mask lists the cells that are covered. -/
theorem mem_mask (c : Cell) : c ∈ m.mask d x y n ↔ m.Covers d x y n c := by
  simp [mask, Display.mem_cells]

/-- The mask lists no cell twice. -/
theorem nodup_mask : (m.mask d x y n).Nodup :=
  Display.nodup_cells.filter _

theorem rowsDrawn_le : m.rowsDrawn d y n ≤ n.toNat := by
  unfold rowsDrawn
  split <;> omega

/-! ## The cells in the order in which they are drawn -/

/-- What a dialect does with the part of a sprite past an edge. -/
def edge (d : Dialect) : Edge :=
  if d.clipping then .clip else .wrap

/-- The cell that two registers name. -/
def corner (m : Machine) (x y : Nibble) : Cell :=
  ⟨m.v[y].setWidth 5, m.v[x].setWidth 6⟩

/-- The cells that the bits of a sprite fall on, bit by bit. -/
def spriteCells (d : Dialect) (m : Machine) (x y n : Nibble) : List Cell :=
  Sprite.cells (edge d) (m.corner x y)
    (m.memory.read m.i (Sprite.rowCount (edge d) (m.corner x y) n.toNat))

/-- The engine reads the rows that are drawn. -/
theorem rowCount_corner :
    Sprite.rowCount (edge d) (m.corner x y) n.toNat = m.rowsDrawn d y n := by
  unfold rowsDrawn edge
  split <;> simp [Sprite.rowCount, corner, Display.height]

/-- The engine puts a bit where it falls. -/
theorem place?_corner {dr dc : Nat} {c : Cell} :
    Sprite.place? (edge d) (m.corner x y) dr dc = some c ↔ m.FallsOn d x y dr dc c := by
  rw [Sprite.place?_eq_some_iff]
  simp [corner, FallsOn, edge]

/-- The engine draws on the cells of the mask. -/
theorem mem_spriteCells (c : Cell) : c ∈ m.spriteCells d x y n ↔ c ∈ m.mask d x y n := by
  rw [mem_mask, spriteCells, Sprite.mem_cells]
  constructor
  · rintro ⟨dr, bits, hrow, hc⟩
    obtain ⟨dc, hdc, hbit, hplace⟩ := Sprite.mem_rowCells.mp hc
    obtain ⟨hdr, rfl⟩ := List.getElem?_eq_some_iff.mp hrow
    rw [Table.getElem_read] at hbit
    rw [Table.length_read, rowCount_corner] at hdr
    refine ⟨dr, Nat.lt_of_lt_of_le hdr (m.rowsDrawn_le d y n), dc, hdc, ?_,
      (place?_corner d m x y).mp hplace⟩
    rwa [spriteBit, Addr.ofNat_toNat_add]
  · rintro ⟨dr, hdr, dc, hdc, hbit, hfalls⟩
    -- a row that is not looked at starts past the edge, so none of its bits falls on a cell
    have looked : dr < m.rowsDrawn d y n := by
      unfold rowsDrawn
      split
      case isTrue clip =>
        have inside := hfalls.1 clip
        omega
      case isFalse => exact hdr
    have hlen : dr < (m.memory.read m.i
        (Sprite.rowCount (edge d) (m.corner x y) n.toNat)).length := by
      rwa [Table.length_read, rowCount_corner]
    refine ⟨dr, _, List.getElem?_eq_getElem hlen,
      Sprite.mem_rowCells.mpr ⟨dc, hdc, ?_, (place?_corner d m x y).mpr hfalls⟩⟩
    rwa [Table.getElem_read, ← Addr.ofNat_toNat_add]

/-- The engine turns no cell over twice in one draw. -/
theorem nodup_spriteCells : (m.spriteCells d x y n).Nodup := by
  apply Sprite.nodup_cells
  rw [Table.length_read, rowCount_corner]
  have rows := m.rowsDrawn_le d y n
  omega

/-- The cells that are drawn are those of the mask, in some order. -/
theorem spriteCells_perm_mask : (m.spriteCells d x y n).Perm (m.mask d x y n) :=
  (List.perm_ext_iff_of_nodup (m.nodup_spriteCells d x y n) (m.nodup_mask d x y n)).mpr
    (m.mem_spriteCells d x y n)

/-! ## What a draw changes -/

/-- The machine after a draw, its display apart. -/
theorem drawSprite_eq :
    m.drawSprite d x y n =
      { m with
        display := (m.drawSprite d x y n).display
        v := m.v.set flag (if 0 < (m.mask d x y n).countP (m.display[·]) then 1 else 0)
        dirty := m.dirty || !(m.mask d x y n).isEmpty
        counters := { m.counters with
          reads := m.counters.reads + m.rowsDrawn d y n
          collisions := m.counters.collisions + (m.mask d x y n).countP (m.display[·])
          draws := m.counters.draws + 1 } } := by
  have hits : (m.display.plot (m.spriteCells d x y n)).hits =
      (m.mask d x y n).countP (m.display[·]) :=
    (Display.hits_plot _ (m.nodup_spriteCells d x y n)).trans
      ((m.spriteCells_perm_mask d x y n).countP_eq _)
  rw [← (m.spriteCells_perm_mask d x y n).isEmpty_eq, ← hits, ← m.rowCount_corner d x y n]
  rfl

/-- A draw turns over the covered cells. -/
theorem display_drawSprite (c : Cell) :
    (m.drawSprite d x y n).display[c] = (m.display[c] ^^ decide (m.Covers d x y n c)) := by
  have plotted := Display.getElem_plot m.display (m.nodup_spriteCells d x y n) c
  simp only [mem_spriteCells, mem_mask] at plotted
  exact plotted

/-- A draw counts the covered cells that were on. -/
theorem collisions_drawSprite :
    (m.drawSprite d x y n).counters.collisions =
      m.counters.collisions + (m.mask d x y n).countP (m.display[·]) := by
  rw [drawSprite_eq]

/-- The flag says whether a covered cell was on. -/
theorem flag_drawSprite :
    (m.drawSprite d x y n).v[flag] =
      if 0 < (m.mask d x y n).countP (m.display[·]) then 1 else 0 := by
  rw [drawSprite_eq]
  exact Table.getElem_set_self _ _ _

/-- Every covered cell that was on is lost, every other one is gained. -/
theorem length_lit_drawSprite :
    (m.drawSprite d x y n).display.lit.length + 2 * (m.mask d x y n).countP (m.display[·]) =
      m.display.lit.length + (m.mask d x y n).length := by
  have covered : (m.mask d x y n).length = Display.cells.countP (m.Covers d x y n ·) :=
    List.countP_eq_length_filter.symm
  have met : (m.mask d x y n).countP (m.display[·]) =
      Display.cells.countP fun c => m.display[c] && decide (m.Covers d x y n c) :=
    List.countP_filter
  rw [Display.length_lit, Display.length_lit, covered, met, ← Display.countP_xor]
  simp only [display_drawSprite]

end Mask

/-- The word of a draw draws; it cannot fail. -/
theorem execute_drawSprite (s : Setup) (m : Machine) (x y n : Nibble) :
    m.execute s (Instruction.draw x y n).encode = ⟨m.drawSprite s.dialect x y n, [], none⟩ :=
  execute_encode rfl

/-- **A draw turns over the cells of its mask.** The mask is fixed by the position that the two
registers hold before the flag is cleared. The flag tells whether a cell of the mask was on, the
number of those is added to the collisions, and the display counts as changed if the mask has a
cell. Nothing else changes, and a draw never fails. -/
theorem execute_draw (s : Setup) (m : Machine) (x y n : Nibble) :
    let reply := m.execute s (Instruction.draw x y n).encode
    let mask := m.mask s.dialect x y n
    let met := mask.countP fun c => m.display[c]
    reply.fault? = none ∧ reply.notices = [] ∧
      (∀ c, reply.machine.display[c] =
        (m.display[c] ^^ decide (m.Covers s.dialect x y n c))) ∧
      reply.machine.display.lit.length + 2 * met = m.display.lit.length + mask.length ∧
      reply.machine =
        { m with
          display := reply.machine.display
          v := m.v.set flag (if 0 < met then 1 else 0)
          dirty := m.dirty || !mask.isEmpty
          counters := { m.counters with
            reads := m.counters.reads + m.rowsDrawn s.dialect y n
            collisions := m.counters.collisions + met
            draws := m.counters.draws + 1 } } := by
  rw [execute_drawSprite]
  exact ⟨rfl, rfl, m.display_drawSprite s.dialect x y n, m.length_lit_drawSprite s.dialect x y n,
    m.drawSprite_eq s.dialect x y n⟩

end Machine

end Cosmac
