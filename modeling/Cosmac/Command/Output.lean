import Cosmac.Command.Run

/-!
# Where the lines go

The lines for the user are shown on an output, which may have no way to show a code point: half of a
surrogate pair, which a file can bring in by an escape, has no form in UTF-8. The first line that
cannot be shown breaks the command off, wherever it is, and nothing catches that.
-/

namespace Cosmac.Command

/-- What the lines for the user are shown on. -/
structure Output where
  /-- Whether a code point can be shown. -/
  shows : CodePoint → Bool

namespace Output

/-- An output in UTF-8, which has a form for every character and none for a surrogate. -/
def utf8 : Output where
  shows p := decide p.val.isValidChar

/-- A line is shown whole or not at all. -/
def takes (out : Output) (line : Text) : Bool :=
  line.all out.shows

/-- A string has no halves of surrogate pairs, so it can be written. -/
theorem takes_utf8_ofString (s : String) : utf8.takes (Text.ofString s) = true := by
  rw [takes, Text.ofString, List.all_map, List.all_eq_true]
  intro c _
  have valid : c.toNat.isValidChar := c.valid
  simp only [Function.comp_apply, utf8, CodePoint.val_ofChar, valid, decide_true]

end Output

/-- How the command ended on an output. -/
inductive Exit where
  | ended (outcome : Outcome)
  /-- After the given effects, in an attempt to show a line. -/
  | brokenOff (effects : List Effect) (line : Text)

/-- What an outcome comes to if its lines are to be shown on an output. -/
def Outcome.on (r : Outcome) (out : Output) : Exit :=
  match (r.effects.filterMap Effect.line?).find? fun line => !out.takes line with
  | none => .ended r
  | some line => .brokenOff (r.effects.takeWhile fun e => e.line?.all out.takes) line

/-- Runs the command with its lines shown on an output. -/
def runOn (out : Output) (around : Surroundings) (words : List String) : Exit :=
  (run around words).on out

variable {r : Outcome} {out : Output}

/-- The command comes to its end if all its lines can be shown. -/
theorem Outcome.on_of_taken (taken : ∀ line ∈ r.effects.filterMap Effect.line?, out.takes line) :
    r.on out = .ended r := by
  have none : (r.effects.filterMap Effect.line?).find? (fun line => !out.takes line) = none :=
    List.find?_eq_none.mpr fun line listed => by simp [taken line listed]
  rw [on, none]

/-- The last effect of the command is its only line. -/
theorem Outcome.on_of_last {quiet : List Effect} {line : Text}
    (same : r.effects = quiet ++ [.print line]) (unprinted : ∀ e ∈ quiet, e.line? = none) :
    r.on out = if out.takes line then .ended r else .brokenOff quiet line := by
  have lines : r.effects.filterMap Effect.line? = [line] := by
    rw [same, List.filterMap_append, List.filterMap_eq_nil_iff.mpr unprinted]
    rfl
  cases taken : out.takes line with
  | true =>
    have all : ∀ t ∈ r.effects.filterMap Effect.line?, out.takes t := by
      rw [lines]
      exact List.forall_mem_singleton.mpr taken
    exact on_of_taken all
  | false =>
    have before : r.effects.takeWhile (fun e => e.line?.all out.takes) = quiet := by
      have passed : ∀ e ∈ quiet, (e.line?.all out.takes) = true := fun e listed => by
        rw [unprinted e listed]
        rfl
      rw [same, List.takeWhile_append_of_pos passed]
      simp [Effect.line?, taken]
    rw [on, lines, List.find?_singleton, before]
    simp [taken]

end Cosmac.Command
