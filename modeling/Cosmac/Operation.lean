import Cosmac.Frame

/-!
# Operations

What can be done with a console from outside, one thing at a time and in any order: single
instructions, whole frames, and changes to the keys, to the timers and to the mark that the display
has changed.
-/

namespace Cosmac.Console

/-- One thing that can be done with a console. -/
inductive Operation where
  /-- Carries out the instruction at the program counter. -/
  | step
  /-- Carries out a word as if it had been fetched. -/
  | execute (w : Word)
  | setKey (k : Nibble) (down : Bool)
  | setDelay (n : Int)
  | setSound (n : Int)
  | tickTimers
  | markShown
  /-- Runs a frame in front of a screen that takes the picture or does not. -/
  | frame (accepts : Bool)
  deriving DecidableEq, Repr

/-- The console with another machine in it. -/
def withMachine (c : Console) (m : Machine) : FrameResult where
  console := { c with machine := m }
  effects := []
  picture? := none
  ending := .finished false

/-- The console after a reply of its machine. -/
def withReply (c : Console) (r : Machine.Reply) : FrameResult where
  console := { c with machine := r.machine }
  effects := r.notices.map Effect.ofMachine
  picture? := none
  ending := match r.fault? with
    | some f => .fault f
    | none => .finished false

/-- Does one thing. What is no frame ends like a frame that shows nothing. -/
def operate (s : Setup) (pace : Pace) (c : Console) : Operation → FrameResult
  | .step => c.withReply (c.machine.step s)
  | .execute w => c.withReply (c.machine.execute s w)
  | .setKey k down => c.withMachine (c.machine.setKey k down)
  | .setDelay n => c.withMachine (c.machine.setDelay n)
  | .setSound n => c.withMachine (c.machine.setSound n)
  | .tickTimers => c.withMachine c.machine.tickTimers
  | .markShown => c.withMachine c.machine.markShown
  | .frame accepts => c.frame s pace accepts

/-- The console after a number of operations, whatever each of them came to. -/
def afterAll (s : Setup) (pace : Pace) (c : Console) (ops : List Operation) : Console :=
  ops.foldl (fun c op => (c.operate s pace op).console) c

theorem afterAll_nil (s : Setup) (pace : Pace) (c : Console) : c.afterAll s pace [] = c := rfl

theorem afterAll_cons (s : Setup) (pace : Pace) (c : Console) (op : Operation)
    (ops : List Operation) :
    c.afterAll s pace (op :: ops) = (c.operate s pace op).console.afterAll s pace ops := rfl

end Cosmac.Console
