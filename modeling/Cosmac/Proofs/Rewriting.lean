import Cosmac.Files.Basic
import Mathlib.Tactic.Common

/-!
# Writing a file again

A file that has been written leaves the way to it as it was, since a path leads through directories
only and the file is none. So it can be written again, and then the first time does not matter
(`write_write`).
-/

namespace Cosmac.Files

variable {fs next : Files} {path : String} {p q here : Place} {entry other : Entry}
  {content again : Content}

/-- What is put at one place is not seen at another. -/
theorem entry?_put_of_ne (ne : q ≠ p) : Files.entry? (fs.put p entry) q = fs.entry? q := by
  have skip : (fun e : Place × Entry => decide ((e.1 != p) = true ∧ (e.1 == q) = true)) =
      fun e => e.1 == q := by
    funext e
    by_cases same : e.1 = q
    · simp [same, ne]
    · simp [same]
  unfold entry? put
  simp only [List.find?_cons, beq_eq_false_iff_ne.mpr ne.symm, List.find?_filter, skip]

/-- What is put where no directory stands stands there. -/
theorem entry?_put_self (free : fs.entry? p ≠ some .directory) :
    Files.entry? (fs.put p entry) p = some entry := by
  unfold entry? at free ⊢
  by_cases fixed : p.all (· == "..") || p == top
  · exact absurd (if_pos fixed) free
  · rw [if_neg fixed]
    simp [put]

/-- Of two things put at one place the last one stands there. -/
theorem put_put : (fs.put p entry).put p other = fs.put p other := by
  simp [put, List.filter_filter]

/-! ## The way to a file -/

/-- A way leads on from directories only. -/
theorem directory_of_enter {part : String} (entered : fs.enter here part = .ok q) :
    fs.entry? here = some .directory := by
  unfold enter at entered
  split at entered
  case h_1 => cases entered
  case h_2 => cases entered
  case h_3 found => exact found

/-- No step of a way leads through a place where no directory stands. -/
theorem enter_put {part : String} (free : fs.entry? p ≠ some .directory)
    (entered : fs.enter here part = .ok q) : (fs.put p entry).enter here part = .ok q := by
  have ne : here ≠ p := by
    rintro rfl
    exact free (directory_of_enter entered)
  unfold enter at entered ⊢
  rw [entry?_put_of_ne ne]
  exact entered

/-- A way that was free stays so with something put at its end. -/
theorem foldlM_enter_put {parts : List String} (free : fs.entry? p ≠ some .directory)
    (led : parts.foldlM fs.enter here = .ok q) :
    parts.foldlM (fs.put p entry).enter here = .ok q := by
  induction parts generalizing here with
  | nil => exact led
  | cons part parts ih =>
    rw [List.foldlM_cons] at led ⊢
    cases first : fs.enter here part with
    | error e =>
      rw [first] at led
      cases led
    | ok mid =>
      rw [first] at led
      rw [enter_put free first]
      exact ih led

/-- A path leads to the same place with something put where no directory stands. -/
theorem place_put (free : fs.entry? p ≠ some .directory) (led : fs.place path = .ok q) :
    (fs.put p entry).place path = .ok q := by
  unfold place at led ⊢
  by_cases blank : path = ""
  · rw [if_pos blank] at led
    cases led
  · rw [if_neg blank] at led ⊢
    exact foldlM_enter_put free led

/-- A file can be written where a path leads and no directory stands. -/
theorem write_eq_ok_iff : fs.write path content = .ok next ↔
    ∃ p, fs.place path = .ok p ∧ fs.entry? p ≠ some .directory ∧
      fs.put p (.file content) = next := by
  unfold write
  cases led : fs.place path with
  | error cause => simp
  | ok p =>
    by_cases directory : fs.entry? p = some .directory
    · simp [directory]
    · simp [directory]

/-- **A file that has been written can be written again**, as if for the first time. -/
theorem write_write (written : fs.write path content = .ok next) :
    ∃ last, fs.write path again = .ok last ∧ next.write path again = .ok last := by
  obtain ⟨p, led, free, rfl⟩ := write_eq_ok_iff.mp written
  refine ⟨fs.put p (.file again), write_eq_ok_iff.mpr ⟨p, led, free, rfl⟩,
    write_eq_ok_iff.mpr ⟨p, place_put free led, ?_, put_put⟩⟩
  rw [entry?_put_self free]
  simp

end Cosmac.Files
