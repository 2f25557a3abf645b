import Cosmac.Sprite

/-!
# Turning cells over one after another

Plotting turns the cells of a list over in their order, and each cell is looked at when its turn
comes. When no cell is listed twice the order does not matter: the display afterwards is the display
before with all listed cells turned over at once, and a cell was on when its turn came exactly if it
was on before the first turn.
-/

namespace Cosmac

namespace Plotted

/-- Distinct cells turned over one after another are turned over at once. -/
theorem display_foldl_flip (p : Plotted) {cs : List Cell} (distinct : cs.Nodup) (e : Cell) :
    (cs.foldl flip p).display[e] = (p.display[e] ^^ decide (e ∈ cs)) := by
  induction cs generalizing p with
  | nil => simp
  | cons c cs ih =>
    obtain ⟨fresh, rest⟩ := List.nodup_cons.mp distinct
    rw [List.foldl_cons, ih _ rest]
    simp only [flip, Display.getElem_flip]
    by_cases h : e = c
    · subst h
      simp [fresh]
    · simp [h]

/-- Of distinct cells those are hit that were on at the start. -/
theorem hits_foldl_flip (p : Plotted) {cs : List Cell} (distinct : cs.Nodup) :
    (cs.foldl flip p).hits = p.hits + cs.countP fun c => p.display[c] := by
  induction cs generalizing p with
  | nil => simp
  | cons c cs ih =>
    obtain ⟨fresh, rest⟩ := List.nodup_cons.mp distinct
    have untouched : cs.countP (fun e => (p.flip c).display[e]) =
        cs.countP fun e => p.display[e] := by
      apply List.countP_congr
      intro e he
      have hne : e ≠ c := fun h => fresh (h ▸ he)
      simp [flip, Display.getElem_flip, hne]
    rw [List.foldl_cons, ih _ rest, untouched, List.countP_cons]
    simp only [flip]
    omega

/-- Turning more cells over goes on from the display and adds to the hits. -/
theorem foldl_flip (p : Plotted) (cs : List Cell) :
    cs.foldl flip p = ⟨(p.display.plot cs).display, p.hits + (p.display.plot cs).hits⟩ := by
  induction cs generalizing p with
  | nil => rfl
  | cons c cs ih =>
    rw [Display.plot, List.foldl_cons, List.foldl_cons, ih, ih (flip ⟨p.display, 0⟩ c)]
    simp only [flip, Nat.zero_add, Nat.add_assoc]

end Plotted

namespace Display

/-- Cells may be plotted in two parts. -/
theorem plot_append (d : Display) (cs es : List Cell) :
    d.plot (cs ++ es) = ⟨((d.plot cs).display.plot es).display,
      (d.plot cs).hits + ((d.plot cs).display.plot es).hits⟩ := by
  rw [plot, List.foldl_append]
  exact Plotted.foldl_flip (d.plot cs) es

/-- The cells of a plot of distinct cells. -/
theorem getElem_plot (d : Display) {cs : List Cell} (distinct : cs.Nodup) (e : Cell) :
    (d.plot cs).display[e] = (d[e] ^^ decide (e ∈ cs)) :=
  Plotted.display_foldl_flip ⟨d, 0⟩ distinct e

/-- The hits of a plot of distinct cells. -/
theorem hits_plot (d : Display) {cs : List Cell} (distinct : cs.Nodup) :
    (d.plot cs).hits = cs.countP fun c => d[c] :=
  (Plotted.hits_foldl_flip ⟨d, 0⟩ distinct).trans (Nat.zero_add _)

/-! ## Counting the cells that are on -/

theorem length_lit (d : Display) : d.lit.length = cells.countP fun c => d[c] :=
  List.countP_eq_length_filter.symm

/-- Turning the members of a list `q` over: each one that was on is lost from the count of `p`
instead of added to it. -/
theorem countP_xor (cs : List Cell) (p q : Cell → Bool) :
    cs.countP (fun c => p c ^^ q c) + 2 * cs.countP (fun c => p c && q c) =
      cs.countP p + cs.countP q := by
  induction cs with
  | nil => rfl
  | cons c cs ih =>
    simp only [List.countP_cons]
    cases p c <;> cases q c <;> simp <;> omega

end Display

end Cosmac
