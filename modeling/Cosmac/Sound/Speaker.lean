import Cosmac.Sound.Wave

/-!
# Speakers

A speaker sounds one tone between `start` and `stop`. The silent one only keeps track of whether the
tone would sound. The looped one plays a wave on a channel of a mixer; the mixer may have no channel
left for it, in which case the tone counts as sounding all the same.

Both do nothing when they are started while they sound or stopped while they do not.
-/

namespace Cosmac

/-- What is asked of a mixer, in the order in which it is asked. -/
inductive Mixer.Request where
  /-- The format that a mixer should be opened with. -/
  | format (rate sampleSize channels buffer : Int)
  | open
  /-- A sound is made from the samples of a wave. -/
  | sound (w : Wave)
  | setVolume (volume : Float)
  /-- The sound is played; `-1` repeats it for ever. -/
  | play (loops : Int)
  | stopChannel

namespace Speaker

/-- What a speaker does when it is started or stopped. -/
inductive Action where
  | request (r : Mixer.Request)
  /-- The tone was turned on; the pitch as reports show it. -/
  | toneOn (pitch : String)
  | toneOff

/-- A speaker that makes no sound. -/
structure Silent where
  playing : Bool := false
  /-- How often it was turned on. -/
  activations : Nat := 0
  deriving DecidableEq, Repr

/-- A speaker that repeats a wave on a mixer channel. -/
structure Looped where
  /-- The pitch as reports show it. -/
  pitch : String
  /-- Whether the mixer has a channel for the request to play of a given number. -/
  grants : Nat → Bool
  playing : Bool := false
  /-- How often the mixer was asked to play. -/
  plays : Nat := 0
  /-- The number of the request that the held channel was given for. -/
  channel : Option Nat := none

namespace Silent

/-- Turns the tone on, which counts unless it is on already. -/
def start (s : Silent) : Silent :=
  if s.playing then s else ⟨true, s.activations + 1⟩

/-- Turns the tone off. -/
def stop (s : Silent) : Silent :=
  { s with playing := false }

end Silent

namespace Looped

/-- Plays the wave without end, unless it is playing. -/
def start (s : Looped) : Looped × List Action :=
  if s.playing then (s, [])
  else
    ({ s with
        playing := true
        plays := s.plays + 1
        channel := if s.grants s.plays then some s.plays else none },
      [.request (.play (-1)), .toneOn s.pitch])

/-- Stops the channel that plays the wave, if the mixer had one for it. -/
def stop (s : Looped) : Looped × List Action :=
  if s.playing then
    ({ s with playing := false, channel := none },
      (if s.channel.isSome then [.request .stopChannel] else []) ++ [.toneOff])
  else (s, [])

end Looped

end Speaker

/-- A speaker of either kind. -/
inductive Speaker where
  | silent (s : Speaker.Silent)
  | looped (s : Speaker.Looped)

namespace Speaker

/-- The tone sounds. -/
def playing : Speaker → Bool
  | silent s => s.playing
  | looped s => s.playing

/-- Turns the tone on. -/
def start : Speaker → Speaker × List Action
  | silent s => (.silent s.start, [])
  | looped s => let (s, actions) := s.start; (.looped s, actions)

/-- Turns the tone off. -/
def stop : Speaker → Speaker × List Action
  | silent s => (.silent s.stop, [])
  | looped s => let (s, actions) := s.stop; (.looped s, actions)

@[simp] theorem playing_start (s : Speaker) : s.start.1.playing = true := by
  cases s with
  | silent s =>
    simp only [start, Silent.start, playing]
    split
    · assumption
    · rfl
  | looped s =>
    simp only [start, Looped.start, playing]
    split
    · assumption
    · rfl

@[simp] theorem playing_stop (s : Speaker) : s.stop.1.playing = false := by
  cases s with
  | silent s => rfl
  | looped s =>
    simp only [stop, Looped.stop, playing]
    split
    case isTrue => rfl
    case isFalse quiet => exact Bool.eq_false_iff.mpr quiet

end Speaker

end Cosmac
