import Cosmac.Effect

/-!
# Frames

The machine runs in frames, sixty a second. A frame is a fixed number of instructions, after which
the tone follows the sound timer, both timers count down, and a display that has changed is shown.
In the dialects that wait for the display a frame ends early with the first change.

A frame that meets a fault ends there: nothing after the failing instruction takes place. A screen
that does not take the picture ends it as well, and then the picture still counts as not shown.
-/

namespace Cosmac

/-- How many instructions make a frame: at least one. -/
structure Pace where
  instructions : Nat
  positive : 0 < instructions

namespace Pace

/-- A frame of no instructions. -/
structure Error where
  instructions : Int
  deriving DecidableEq, Repr

/-- What the user is told. -/
def Error.message (e : Error) : String :=
  "instructions_per_frame must be positive, got " ++ toString e.instructions

/-- The pace of a number, which has to be positive. -/
def ofInt? (n : Int) : Except Error Pace :=
  if h : n < 1 then .error ⟨n⟩ else .ok ⟨n.toNat, by omega⟩

/-- The pace unless another is asked for. -/
def standard : Pace := ⟨20, by decide⟩

end Pace

/-- A machine with its speaker, and how many frames it has run and shown. -/
structure Console where
  machine : Machine
  speaker : Speaker
  frames : Nat := 0
  redraws : Nat := 0

namespace Console

/-- A machine in the middle of a frame, with what it has reported, latest first. -/
structure Running where
  machine : Machine
  reported : List Machine.Notice
  fault? : Option Fault

/-- One more instruction. -/
def Running.step (s : Setup) (r : Running) : Running :=
  let reply := r.machine.step s
  ⟨reply.machine, reply.notices.reverse ++ r.reported, reply.fault?⟩

/-- The frame ends before the next instruction. -/
def Running.isOver (s : Setup) (r : Running) : Bool :=
  r.fault?.isSome || (s.dialect.displayWait && r.machine.dirty)

/-- At most `n` more instructions. -/
def Running.steps (s : Setup) (r : Running) : Nat → Running
  | 0 => r
  | n + 1 =>
    let next := r.step s
    if next.isOver s then next else next.steps s n

/-- How a frame ended. -/
inductive Ending where
  /-- In the regular way; the display was shown or had not changed. -/
  | finished (shown : Bool)
  | fault (f : Fault)
  /-- The screen did not take the picture. -/
  | refused
  deriving DecidableEq

/-- What came of a frame. -/
structure FrameResult where
  console : Console
  effects : List Effect
  /-- The picture that was offered to the screen. -/
  picture? : Option Display
  ending : Ending

/-- Turns the speaker on or off. -/
def follow (speaker : Speaker) (sound : Byte) : Speaker × List Speaker.Action :=
  if sound = 0 then speaker.stop else speaker.start

/-- Runs one frame; `accepts` says whether the screen takes a picture that is offered to it. -/
def frame (s : Setup) (pace : Pace) (accepts : Bool) (c : Console) : FrameResult :=
  let run := Running.steps s ⟨c.machine, [], none⟩ pace.instructions
  let reported := run.reported.reverse.map Effect.ofMachine
  match run.fault? with
  | some f => ⟨{ c with machine := run.machine }, reported, none, .fault f⟩
  | none =>
    let (speaker, actions) := follow c.speaker run.machine.sound
    let effects := reported ++ actions.map Effect.ofAction
    let c : Console :=
      { c with machine := run.machine.tickTimers, speaker, frames := c.frames + 1 }
    if !c.machine.dirty then ⟨c, effects, none, .finished false⟩
    else if !accepts then ⟨c, effects, some c.machine.display, .refused⟩
    else
      ⟨{ c with machine := c.machine.markShown, redraws := c.redraws + 1 }, effects,
        some c.machine.display, .finished true⟩

/-- A number of frames run one after another. -/
structure Session where
  console : Console
  /-- What was done, in pieces, the latest first. -/
  done : List (List Effect) := []
  /-- The pictures that were shown, the latest first. -/
  pictures : List Display := []
  fault? : Option Fault := none

namespace Session

/-- What was done, in order. -/
def effects (r : Session) : List Effect :=
  r.done.reverse.flatten

/-- One more frame. -/
def frame (s : Setup) (pace : Pace) (r : Session) : Session :=
  let result := r.console.frame s pace true
  { console := result.console
    done := result.effects :: r.done
    pictures := result.picture?.toList ++ r.pictures
    fault? := match result.ending with
      | .fault f => some f
      | _ => none }

/-- At most `n` more frames; a fault ends them. -/
def frames (s : Setup) (pace : Pace) (r : Session) : Nat → Session
  | 0 => r
  | n + 1 =>
    let next := r.frame s pace
    if next.fault?.isSome then next else next.frames s pace n

end Session

/-- Runs a number of frames, none if the number is negative, and reports them unless a fault ended
them. -/
def run (s : Setup) (pace : Pace) (frames : Int) (c : Console) : Session :=
  let r := Session.frames s pace { console := c } frames.toNat
  if r.fault?.isSome then r
  else { r with done := [.notice (.ran frames r.pictures.length)] :: r.done }

end Console

end Cosmac
