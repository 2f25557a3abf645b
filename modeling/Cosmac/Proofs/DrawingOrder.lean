import Cosmac.Machine.Program
import Cosmac.Proofs.Marking

/-!
# Draws in any order

A draw turns the cells of a mask over, and what the mask is depends on memory, the index and the two
registers that hold the position, but not on the display. So when every draw of a list is given its
position and its sprite, a cell is turned over as often as there are masks in the list that have it,
and only whether this number is odd matters (`display_serveAll`). The order of the draws does not,
and drawing everything once more brings the display back.

The flag and the number of collisions do depend on the order. The last part says what two draws of
the same sprite at the same place make of them.
-/

namespace Cosmac

/-- A draw that is asked for: the operands of the instruction and what the two registers and the
index are to hold when it is carried out. -/
structure DrawRequest where
  x : Nibble
  y : Nibble
  n : Nibble
  vx : Byte
  vy : Byte
  i : Addr
  deriving DecidableEq, Repr

namespace Machine

variable {s : Setup} {m m' : Machine} {d : Dialect} {x y n : Nibble}

/-! ## What a mask depends on -/

/-- **Machines with the same sprite at the same position** draw on the same cells. -/
theorem covers_congr (memory : m'.memory = m.memory) (index : m'.i = m.i) (left : m'.v[x] = m.v[x])
    (top : m'.v[y] = m.v[y]) (c : Cell) : m'.Covers d x y n c ↔ m.Covers d x y n c := by
  simp only [Covers, spriteBit, FallsOn, memory, index, left, top]

/-- Machines with the same sprite at the same position have the same mask. -/
theorem mask_congr (memory : m'.memory = m.memory) (index : m'.i = m.i) (left : m'.v[x] = m.v[x])
    (top : m'.v[y] = m.v[y]) : m'.mask d x y n = m.mask d x y n :=
  List.filter_congr fun c _ => decide_eq_decide.mpr (covers_congr memory index left top c)

/-! ## Lists of draws -/

/-- The machine with the position and the index of a draw set. Where the two registers are the same,
the second value stays. -/
def prepare (m : Machine) (r : DrawRequest) : Machine :=
  { (m.setReg r.x r.vx).setReg r.y r.vy with i := r.i }

/-- The machine after a draw that was asked for. -/
def serve (s : Setup) (m : Machine) (r : DrawRequest) : Machine :=
  ((m.prepare r).execute s (Instruction.draw r.x r.y r.n).encode).machine

/-- The machine after draws that were asked for, one after another. -/
def serveAll (s : Setup) (m : Machine) (rs : List DrawRequest) : Machine :=
  rs.foldl (serve s) m

/-- The cells that a draw is going to turn over. -/
def maskOf (d : Dialect) (m : Machine) (r : DrawRequest) : List Cell :=
  (m.prepare r).mask d r.x r.y r.n

/-- What a draw that is asked for covers depends on the memory only; it brings the rest along. -/
theorem maskOf_congr (memory : m'.memory = m.memory) (r : DrawRequest) :
    m'.maskOf d r = m.maskOf d r := by
  have set (k : Nibble) (same : k = r.x ∨ k = r.y) : (m'.prepare r).v[k] = (m.prepare r).v[k] := by
    simp only [prepare, setReg, Table.getElem_set]
    obtain rfl | rfl := same <;> simp
  exact mask_congr memory rfl (set r.x (.inl rfl)) (set r.y (.inr rfl))

/-- To serve a request is to prepare it and to draw. -/
theorem serve_eq (s : Setup) (m : Machine) (r : DrawRequest) :
    m.serve s r = (m.prepare r).drawSprite s.dialect r.x r.y r.n := by
  rw [serve, execute_drawSprite]

/-- A draw leaves the memory, and with it every sprite. -/
theorem memory_serve (r : DrawRequest) : (m.serve s r).memory = m.memory := by
  rw [serve_eq]
  rfl

/-- A draw turns over the cells of its mask. -/
theorem display_serve (r : DrawRequest) (c : Cell) :
    (m.serve s r).display[c] = (m.display[c] ^^ decide (c ∈ m.maskOf s.dialect r)) := by
  rw [serve_eq, display_drawSprite]
  simp only [maskOf, mem_mask]
  rfl

/-- A draw raises the mark if it covers a cell. -/
theorem dirty_serve (r : DrawRequest) :
    (m.serve s r).dirty = (m.dirty || !(m.maskOf s.dialect r).isEmpty) := by
  rw [serve_eq, dirty_drawSprite]
  rfl

/-- How many draws of a list turn a cell over. -/
def turns (d : Dialect) (m : Machine) (rs : List DrawRequest) (c : Cell) : Nat :=
  rs.countP fun r => c ∈ m.maskOf d r

/-- A draw does not change which cells the others turn over. -/
theorem turns_serve (r : DrawRequest) (rs : List DrawRequest) (c : Cell) :
    (m.serve s r).turns d rs c = m.turns d rs c := by
  simp only [turns, maskOf_congr (memory_serve r)]

/-- One more turn makes an even number odd and an odd number even. -/
theorem odd_add_ite (n : Nat) (p : Prop) [Decidable p] :
    decide ((n + if p then 1 else 0) % 2 = 1) = (decide p ^^ decide (n % 2 = 1)) := by
  by_cases more : p
  · rw [if_pos more, decide_eq_true more, Bool.true_xor, ← decide_not]
    exact decide_eq_decide.mpr (by omega)
  · rw [if_neg more, decide_eq_false more, Bool.false_xor, Nat.add_zero]

/-- **A cell is turned over by a list of draws if an odd number of them cover it.** -/
theorem display_serveAll (rs : List DrawRequest) (c : Cell) :
    (m.serveAll s rs).display[c] =
      (m.display[c] ^^ decide (m.turns s.dialect rs c % 2 = 1)) := by
  induction rs generalizing m with
  | nil => simp [serveAll, turns]
  | cons r rs ih =>
    have split : m.turns s.dialect (r :: rs) c =
        m.turns s.dialect rs c + if c ∈ m.maskOf s.dialect r then 1 else 0 := by
      simp only [turns, List.countP_cons, decide_eq_true_eq]
    show ((m.serve s r).serveAll s rs).display[c] = _
    rw [ih, turns_serve, display_serve, split, odd_add_ite, Bool.xor_assoc]

/-- The mark is raised if one of the draws covers a cell. -/
theorem dirty_serveAll (rs : List DrawRequest) :
    (m.serveAll s rs).dirty = (m.dirty || rs.any fun r => !(m.maskOf s.dialect r).isEmpty) := by
  induction rs generalizing m with
  | nil => simp [serveAll]
  | cons r rs ih =>
    show ((m.serve s r).serveAll s rs).dirty = _
    simp only [ih, dirty_serve, maskOf_congr (memory_serve r), List.any_cons, Bool.or_assoc]

/-- Draws leave the memory. -/
theorem memory_serveAll (rs : List DrawRequest) : (m.serveAll s rs).memory = m.memory := by
  induction rs generalizing m with
  | nil => rfl
  | cons r rs ih => exact ih.trans (memory_serve r)

/-! ## The same draw twice -/

section Twice

variable (left : x ≠ flag) (top : y ≠ flag)
include left top

/-- A draw does not move its own mask, unless its position is held by the flag. -/
theorem mask_drawSprite : (m.drawSprite d x y n).mask d x y n = m.mask d x y n := by
  have held {k : Nibble} (other : k ≠ flag) : (m.drawSprite d x y n).v[k] = m.v[k] :=
    Table.getElem_set_ne m.v _ other
  exact mask_congr rfl rfl (held left) (held top)

/-- The same draw twice restores the display. -/
theorem display_twice :
    ((m.drawSprite d x y n).drawSprite d x y n).display = m.display := by
  ext c
  rw [display_drawSprite, display_drawSprite]
  simp only [← mem_mask, mask_drawSprite left top, Bool.xor_assoc, Bool.xor_self, Bool.xor_false]

/-- The cells that the second draw hits are those that the first one has missed. -/
theorem hits_twice :
    ((m.drawSprite d x y n).mask d x y n).countP ((m.drawSprite d x y n).display[·]) =
      (m.mask d x y n).countP fun c => !m.display[c] := by
  rw [mask_drawSprite left top]
  apply List.countP_congr
  intro c covered
  rw [display_drawSprite, decide_eq_true ((m.mem_mask d x y n c).mp covered), Bool.xor_true]

/-- Drawn again, a sprite hits the cells that it missed at first. -/
theorem collisions_twice :
    ((m.drawSprite d x y n).drawSprite d x y n).counters.collisions =
      (m.drawSprite d x y n).counters.collisions +
        (m.mask d x y n).countP fun c => !m.display[c] := by
  rw [collisions_drawSprite, hits_twice left top]

/-- The flag after the second draw says whether the first one missed a cell of its mask. -/
theorem flag_twice :
    ((m.drawSprite d x y n).drawSprite d x y n).v[flag] =
      if ∃ c ∈ m.mask d x y n, m.display[c] = false then 1 else 0 := by
  rw [flag_drawSprite, hits_twice left top]
  simp only [List.countP_pos_iff, Bool.not_eq_true']

end Twice

/-! ## The order does not matter -/

section Permuted

variable {rs rs' : List DrawRequest} (permuted : rs'.Perm rs)
include permuted

/-- The display does not depend on the order of the draws. -/
theorem display_serveAll_perm : (m.serveAll s rs').display = (m.serveAll s rs).display := by
  ext c
  rw [display_serveAll, display_serveAll, turns, turns, permuted.countP_eq]

/-- The mark does not depend on the order of the draws. -/
theorem dirty_serveAll_perm : (m.serveAll s rs').dirty = (m.serveAll s rs).dirty := by
  rw [dirty_serveAll, dirty_serveAll, permuted.any_eq]

/-- Every cell is turned over an even number of times by a list and the same list once more. -/
theorem display_serveAll_serveAll :
    ((m.serveAll s rs).serveAll s rs').display = m.display := by
  ext c
  have again : (m.serveAll s rs).turns s.dialect rs' c = m.turns s.dialect rs c := by
    simp only [turns, maskOf_congr (memory_serveAll rs), permuted.countP_eq]
  rw [display_serveAll, display_serveAll, again, Bool.xor_assoc, Bool.xor_self, Bool.xor_false]

end Permuted

/-- **Draws act on the display as exclusive ors.** A list of draws, each with its own position and
sprite, turns over the cells that an odd number of them cover. So the order of the draws matters
neither to the display nor to the mark that it has changed, and all draws once more, in any order,
bring the display back. A draw that is repeated at once does so by itself, provided that its
position is not held by the flag: between them the two draws hit every cell of the sprite once, and
the second one raises the flag if a cell was off before the first. -/
theorem draws_cancel (s : Setup) (m : Machine) :
    (∀ rs c, (m.serveAll s rs).display[c] =
        (m.display[c] ^^ decide (m.turns s.dialect rs c % 2 = 1))) ∧
      (∀ rs rs' : List DrawRequest, rs'.Perm rs →
        (m.serveAll s rs').display = (m.serveAll s rs).display ∧
          (m.serveAll s rs').dirty = (m.serveAll s rs).dirty ∧
          ((m.serveAll s rs).serveAll s rs').display = m.display) ∧
      ∀ x y n : Nibble, x ≠ flag → y ≠ flag →
        let w := (Instruction.draw x y n).encode
        let once := (m.execute s w).machine
        let twice := (once.execute s w).machine
        let cells := m.mask s.dialect x y n
        twice.display = m.display ∧
          (∃ first second, once.counters.collisions = m.counters.collisions + first ∧
            twice.counters.collisions = once.counters.collisions + second ∧
            first + second = cells.length) ∧
          twice.v[flag] = if ∃ c ∈ cells, m.display[c] = false then 1 else 0 := by
  refine ⟨fun rs c => display_serveAll rs c, fun rs rs' permuted => ⟨?_, ?_, ?_⟩, ?_⟩
  · exact display_serveAll_perm permuted
  · exact dirty_serveAll_perm permuted
  · exact display_serveAll_serveAll permuted
  · intro x y n left top w once twice cells
    have first : once = m.drawSprite s.dialect x y n :=
      congrArg Reply.machine (execute_drawSprite s m x y n)
    have second : twice = once.drawSprite s.dialect x y n :=
      congrArg Reply.machine (execute_drawSprite s once x y n)
    rw [second, first]
    refine ⟨display_twice left top, ⟨_, _, collisions_drawSprite .., collisions_twice left top, ?_⟩,
      flag_twice left top⟩
    have every := List.length_eq_countP_add_countP (m.display[·]) (l := cells)
    simpa using every.symm

/-- A machine with the pictures of the digits in memory. -/
def slate : Machine :=
  { empty with memory := empty.memory.write 0 font }

/-- Three draws that overlap: two digits, and a row whose position is held by the flag. -/
def overlapping : List DrawRequest :=
  [⟨0, 1, 5, 0, 0, 0⟩, ⟨2, 3, 5, 2, 1, 5⟩, ⟨flag, flag, 1, 3, 3, 40⟩]

theorem draws_cancel_overlapping :
    let drawn := slate.serveAll {} overlapping
    let w := (Instruction.draw 0 1 5).encode
    let once := (slate.execute {} w).machine
    let twice := (once.execute {} w).machine
    overlapping.reverse.Perm overlapping ∧ drawn.display ≠ slate.display ∧
      (slate.serveAll {} overlapping.reverse).display = drawn.display ∧
      (drawn.serveAll {} overlapping.reverse).display = slate.display ∧
      (0 : Nibble) ≠ flag ∧ (1 : Nibble) ≠ flag ∧ once.display ≠ slate.display ∧
      twice.display = slate.display ∧ twice.v[flag] = 1 := by
  obtain ⟨-, permuted, repeated⟩ := draws_cancel {} slate
  have reversed : overlapping.reverse.Perm overlapping := List.reverse_perm overlapping
  obtain ⟨order, -, back⟩ := permuted _ _ reversed
  obtain ⟨same, -, raised⟩ := repeated 0 1 5 (by decide) (by decide)
  have missed : ∃ c ∈ slate.mask {} 0 1 5, slate.display[c] = false :=
    ⟨⟨0, 0⟩, by decide +kernel, by decide +kernel⟩
  exact ⟨reversed, by decide +kernel, order, back, by decide, by decide, by decide +kernel, same,
    raised.trans (if_pos missed)⟩

end Machine

end Cosmac
