import Cosmac.Machine.Execute
import Cosmac.Sound.Mixer

/-!
# Notices

Everything that the program puts into its log, by the part that reports it, and the entry that each
notice becomes.
-/

namespace Cosmac

/-- Something that the program reports. -/
inductive Notice where
  | machine (n : Machine.Notice)
  /-- A number of frames was run, some of which changed the display. -/
  | ran (frames : Int) (redraws : Nat)
  | toneOn (pitch : String)
  | toneOff
  /-- There will be no sound, for the given reason. -/
  | soundDisabled (reason : String)
  /-- A key of the keyboard went down that stands for a key of the pad. -/
  | keyPressed (symbol : String) (key : Nibble)
  /-- The dialect is read from a file. -/
  | readingDialect (path : String)

/-- The entry that a notice makes in the log. -/
def Notice.entry : Notice → Log.Entry
  | machine n => n.entry
  | ran frames redraws =>
    ⟨.debug, .frames, "Ran " ++ toString frames ++ " frames, " ++ toString redraws ++ " redraws"⟩
  | toneOn pitch => ⟨.debug, .sound, "Tone on (" ++ pitch ++ " Hz)"⟩
  | toneOff => ⟨.debug, .sound, "Tone off"⟩
  | soundDisabled reason => ⟨.warning, .sound, "Sound disabled: " ++ reason⟩
  | keyPressed symbol key =>
    ⟨.debug, .window, "Key pressed: " ++ symbol ++ " -> CHIP-8 key 0x" ++ Hex.upper 1 key.toNat⟩
  | readingDialect path => ⟨.debug, .commandLine, "Reading quirks from " ++ path⟩

end Cosmac
