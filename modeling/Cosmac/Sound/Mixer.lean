import Cosmac.Sound.Speaker

/-!
# Opening a speaker

A looped speaker needs a mixer that has been opened. It is given one, or it takes the one of the
sound library and opens that when it has to. Where there is no library or no usable device the
program goes on with a silent speaker; a frequency of which no wave can be made stays an error.
-/

namespace Cosmac

namespace Mixer

/-- The format of an open mixer. -/
structure Format where
  rate : Int
  sampleSize : Int
  channels : Int
  deriving DecidableEq, Repr

end Mixer

/-- A mixer as the program finds it. -/
structure Mixer where
  /-- The format, once the mixer is open. -/
  format : Option Mixer.Format
  /-- Whether there is a channel for the request to play of a given number. -/
  grants : Nat → Bool
  /-- The format after opening. -/
  afterOpening : Option Mixer.Format
  /-- What goes wrong on opening. -/
  failure : Option String

namespace Speaker

/-- Why there is no looped speaker. -/
inductive Error where
  /-- The sound library is not installed. -/
  | libraryMissing
  | deviceUnavailable (reason : String)
  /-- The mixer has not been opened. -/
  | notOpen
  /-- No wave can be made. -/
  | wave (e : Wave.Error)
  deriving DecidableEq, Repr

namespace Error

/-- What the user is told. -/
def message : Error → String
  | libraryMissing => "pygame is required for audio output (pip install chip8vm[audio])"
  | deviceUnavailable reason => "pygame mixer unavailable: " ++ reason
  | notOpen => "pygame mixer must be initialised before creating SquareWaveBeeper"
  | wave e => e.message

/-- The program can go on without sound. -/
def isHarmless : Error → Bool
  | wave _ => false
  | _ => true

end Error

/-- The pitch of the tone unless another is asked for, in cycles a second. -/
def defaultPitch : Number := .int 432

/-- The loudness of the tone unless another is asked for. -/
def defaultVolume : Float := 0.35

/-- The format that a mixer is opened with. -/
def preferredFormat : Mixer.Request := .format 44100 (-16) 1 512

/-- A loudness brought into the range from zero to one; what is not below one counts as one. -/
def clampVolume (volume : Float) : Float :=
  let v := if volume < 1 then volume else 1
  if 0 < v then v else 0

/-- The requests that were made and what came of them. -/
structure Opened (α : Type) where
  requests : List Mixer.Request
  result : Except Error α

/-- The format of the library's mixer, which is opened if it is not open yet. -/
def openLibrary (library : Option Mixer) : Opened Mixer :=
  match library with
  | none => ⟨[], .error .libraryMissing⟩
  | some m =>
    if m.format.isSome then ⟨[], .ok m⟩
    else
      match m.failure with
      | some reason => ⟨[preferredFormat, .open], .error (.deviceUnavailable reason)⟩
      | none => ⟨[preferredFormat, .open], .ok { m with format := m.afterOpening }⟩

/-- The speaker of a mixer. -/
def Looped.ofMixer (pitch : Number) (volume : Float) (m : Mixer) : Opened Looped :=
  match m.format with
  | none => ⟨[], .error .notOpen⟩
  | some f =>
    match Wave.make? pitch f.rate f.channels Wave.defaultAmplitude with
    | .error e => ⟨[], .error (.wave e)⟩
    | .ok w =>
      ⟨[.sound w, .setVolume (clampVolume volume)], .ok { pitch := pitch.text, grants := m.grants }⟩

/-- The speaker of a given mixer, or of the library's. -/
def Looped.make (pitch : Number) (volume : Float) (given library : Option Mixer) :
    Opened Looped :=
  match given with
  | some m => ofMixer pitch volume m
  | none =>
    let opened := openLibrary library
    match opened.result with
    | .error e => ⟨opened.requests, .error e⟩
    | .ok m =>
      let made := ofMixer pitch volume m
      ⟨opened.requests ++ made.requests, made.result⟩

/-- A speaker that fits the system: looped if there is sound, silent otherwise. -/
structure Chosen where
  requests : List Mixer.Request
  /-- Why the speaker is silent. -/
  disabled : Option Error
  result : Except Error Speaker

/-- A looped speaker if sound can be had and a silent one if not. -/
def choose (pitch : Number) (library : Option Mixer) : Chosen :=
  let made := Looped.make pitch defaultVolume none library
  match made.result with
  | .ok s => ⟨made.requests, none, .ok (.looped s)⟩
  | .error e =>
    if e.isHarmless then ⟨made.requests, some e, .ok (.silent {})⟩
    else ⟨made.requests, none, .error e⟩

/-- A speaker of a mixer starts out quiet. -/
theorem Looped.playing_of_ofMixer {pitch : Number} {volume : Float} {m : Mixer} {s : Looped}
    (made : (ofMixer pitch volume m).result = .ok s) : s.playing = false := by
  unfold ofMixer at made
  split at made
  · cases made
  · split at made <;> cases made
    rfl

/-- A looping speaker starts out quiet, whichever mixer it is made of. -/
theorem Looped.playing_of_make {pitch : Number} {volume : Float} {given library : Option Mixer}
    {s : Looped} (made : (make pitch volume given library).result = .ok s) :
    s.playing = false := by
  simp only [make] at made
  split at made
  · exact playing_of_ofMixer made
  · split at made
    · cases made
    · exact playing_of_ofMixer made

/-- A speaker does not sound before it is started. -/
theorem playing_of_choose {pitch : Number} {library : Option Mixer} {s : Speaker}
    (chosen : (choose pitch library).result = .ok s) : s.playing = false := by
  simp only [choose] at chosen
  split at chosen
  next looped made =>
    cases chosen
    exact Looped.playing_of_make made
  next e refused =>
    split at chosen <;> cases chosen
    rfl

end Speaker

end Cosmac
