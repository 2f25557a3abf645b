import Cosmac.Proofs.Switches

/-!
# Cutting off is wrapping kept to one side

A sprite that reaches past the right or the lower edge is cut off there in some dialects and comes
in again at the opposite edge in others. What comes in again stays strictly to the left of the
corner or strictly above it: a sprite of eight columns does not get around a display of sixty-four,
and fifteen rows do not get around thirty-two. So the cells that a sprite covers when it is cut off
are those below and to the right of its corner that it covers when it wraps (`covers_clip_iff`), and
what a draw does to the display, the flag and the collisions in one dialect bounds what it does in
the other. A sprite inside the display is drawn alike.
-/

namespace Cosmac

/-- The same setup with sprites cut off at the edges, or not. -/
def Setup.withClipping (s : Setup) (clips : Bool) : Setup :=
  s.inDialect { s.dialect with clipping := clips }

namespace Machine

/-- The cell is not above the corner of a sprite and not to the left of it. -/
def BeyondCorner (m : Machine) (x y : Nibble) (c : Cell) : Prop :=
  m.v[y].toNat % 32 ≤ c.row.toNat ∧ m.v[x].toNat % 64 ≤ c.col.toNat

section

variable {d e : Dialect} {m : Machine} {x y n : Nibble}
  (clips : d.clipping = true) (wraps : e.clipping = false)
include clips wraps

/-- With the edges cut off, a bit falls where it does with them joined, unless it came around. -/
theorem fallsOn_clip_iff {dr dc : Nat} (low : dr < 32) (narrow : dc < 64) (c : Cell) :
    m.FallsOn d x y dr dc c ↔ m.FallsOn e x y dr dc c ∧ m.BeyondCorner x y c := by
  simp only [FallsOn, BeyondCorner, clips, wraps, Bool.false_eq_true, false_implies, true_implies,
    true_and]
  omega

/-- **What is covered with the edges cut off** is what is covered with the edges joined, without
what came around. -/
theorem covers_clip_iff (c : Cell) :
    m.Covers d x y n c ↔ m.Covers e x y n c ∧ m.BeyondCorner x y c := by
  constructor
  · rintro ⟨dr, hdr, dc, hdc, bit, falls⟩
    obtain ⟨wrapped, beyond⟩ := (fallsOn_clip_iff clips wraps (by omega) (by omega) c).mp falls
    exact ⟨⟨dr, hdr, dc, hdc, bit, wrapped⟩, beyond⟩
  · rintro ⟨⟨dr, hdr, dc, hdc, bit, wrapped⟩, beyond⟩
    exact ⟨dr, hdr, dc, hdc, bit,
      (fallsOn_clip_iff clips wraps (by omega) (by omega) c).mpr ⟨wrapped, beyond⟩⟩

/-- With the edges cut off, a sprite covers no more cells of any kind. -/
theorem countP_mask_clip_le (p : Cell → Bool) :
    (m.mask d x y n).countP p ≤ (m.mask e x y n).countP p := by
  rw [mask, mask, List.countP_filter, List.countP_filter]
  apply List.countP_mono_left
  intro c _ covered
  simp only [Bool.and_eq_true, decide_eq_true_eq] at covered ⊢
  exact ⟨covered.1, ((covers_clip_iff clips wraps c).mp covered.2).1⟩

/-- On the cells beyond the corner it makes no difference what becomes of the edges, -/
theorem display_clip_beyond {c : Cell} (beyond : m.BeyondCorner x y c) :
    (m.drawSprite d x y n).display[c] = (m.drawSprite e x y n).display[c] := by
  have alike : m.Covers d x y n c ↔ m.Covers e x y n c :=
    (covers_clip_iff clips wraps c).trans (and_iff_left beyond)
  rw [display_drawSprite, display_drawSprite, decide_eq_decide.mpr alike]

/-- and on the others nothing is drawn if they are cut off. -/
theorem display_clip_before {c : Cell} (before : ¬ m.BeyondCorner x y c) :
    (m.drawSprite d x y n).display[c] = m.display[c] := by
  have uncovered : ¬ m.Covers d x y n c := fun covered =>
    before ((covers_clip_iff clips wraps c).mp covered).2
  rw [display_drawSprite, decide_eq_false uncovered, Bool.xor_false]

/-- With the edges cut off, no more collisions are counted. -/
theorem collisions_clip_le :
    (m.drawSprite d x y n).counters.collisions ≤ (m.drawSprite e x y n).counters.collisions := by
  rw [collisions_drawSprite, collisions_drawSprite]
  exact Nat.add_le_add_left (countP_mask_clip_le clips wraps _) _

/-- With the edges cut off, the flag is set no more easily. -/
theorem flag_clip_le :
    (m.drawSprite d x y n).v[flag].toNat ≤ (m.drawSprite e x y n).v[flag].toNat := by
  have hits := countP_mask_clip_le (m := m) (x := x) (y := y) (n := n) clips wraps (m.display[·])
  rw [flag_drawSprite, flag_drawSprite]
  split
  case isTrue hit =>
    exact Nat.le_of_eq (by rw [if_pos (Nat.lt_of_lt_of_le hit hits)])
  case isFalse => exact Nat.zero_le _

end

/-- **Cutting off is wrapping kept to the cells below and to the right of the corner.** Of two
draws from the same state, one with the edges cut off and one with them joined, both do the same to
these cells, and the one that cuts off leaves all other cells alone. Its flag and its collisions are
at most those of the other, and if the whole sprite is inside the display, there is no difference at
all. -/
theorem clipped_within_wrapped (s : Setup) (m : Machine) (x y n : Nibble) :
    let clipped := m.execute (s.withClipping true) (Instruction.draw x y n).encode
    let wrapped := m.execute (s.withClipping false) (Instruction.draw x y n).encode
    let row := m.v[y].toNat % 32
    let col := m.v[x].toNat % 64
    clipped.fault? = none ∧ wrapped.fault? = none ∧
      (∀ c : Cell, row ≤ c.row.toNat ∧ col ≤ c.col.toNat →
        clipped.machine.display[c] = wrapped.machine.display[c]) ∧
      (∀ c : Cell, ¬ (row ≤ c.row.toNat ∧ col ≤ c.col.toNat) →
        clipped.machine.display[c] = m.display[c]) ∧
      clipped.machine.v[flag].toNat ≤ wrapped.machine.v[flag].toNat ∧
      clipped.machine.counters.collisions ≤ wrapped.machine.counters.collisions ∧
      (col + 8 ≤ 64 ∧ row + n.toNat ≤ 32 → clipped = wrapped) := by
  have clips : (s.withClipping true).dialect.clipping = true := rfl
  have wraps : (s.withClipping false).dialect.clipping = false := rfl
  rw [execute_drawSprite, execute_drawSprite]
  refine ⟨rfl, rfl, fun c beyond => display_clip_beyond clips wraps beyond,
    fun c before => display_clip_before clips wraps before, flag_clip_le clips wraps,
    collisions_clip_le clips wraps, fun inside => ?_⟩
  have contained : ¬ m.Overhangs x y n := by
    simp only [Overhangs]
    omega
  rw [drawSprite_of_inside contained]

/-- A machine about to draw a digit across the lower right corner of the display, onto a cell near
the upper left one that is on. -/
def cornered : Machine :=
  { empty with
    memory := empty.memory.write 0 font
    v := ((Table.fill 0).set 0 62).set 1 30
    display := Display.blank.set ⟨0, 1⟩ true }

theorem clipped_within_wrapped_cornered :
    let s : Setup := {}
    let w := (Instruction.draw 0 1 5).encode
    let clipped := (cornered.execute (s.withClipping true) w).machine
    let wrapped := (cornered.execute (s.withClipping false) w).machine
    (30 ≤ 31 ∧ 62 ≤ 62) ∧ clipped.display[(⟨31, 62⟩ : Cell)] = wrapped.display[(⟨31, 62⟩ : Cell)] ∧
      ¬ (30 ≤ 0 ∧ 62 ≤ 1) ∧ clipped.display[(⟨0, 1⟩ : Cell)] = true ∧
      wrapped.display[(⟨0, 1⟩ : Cell)] = false ∧ wrapped.v[flag] = 1 ∧ clipped.v[flag] = 0 ∧
      (0 + 8 ≤ 64 ∧ 0 + 5 ≤ 32) ∧
      cornered.execute (s.withClipping true) (Instruction.draw 2 2 5).encode =
        cornered.execute (s.withClipping false) (Instruction.draw 2 2 5).encode := by
  obtain ⟨-, -, beyond, before, -⟩ := clipped_within_wrapped {} cornered 0 1 5
  obtain ⟨-, -, -, -, -, -, inside⟩ := clipped_within_wrapped {} cornered 2 2 5
  have kept : cornered.display[(⟨0, 1⟩ : Cell)] = true := by decide +kernel
  exact ⟨by decide, beyond _ (by decide), by decide, (before _ (by decide)).trans kept,
    by decide +kernel, by decide +kernel, by decide +kernel, by decide, inside (by decide)⟩

end Machine

end Cosmac
