import Cosmac.Main
import Cosmac.Operation
import Cosmac.Proofs.Drawing
import Cosmac.Proofs.Faults
import Cosmac.Proofs.CallStack
import Cosmac.Proofs.Plain.Safety
import Cosmac.Proofs.Recognition
import Cosmac.Proofs.FrameSteps
import Cosmac.Proofs.Marking
import Cosmac.Proofs.Redrawing
import Cosmac.Proofs.DisplayWait
import Cosmac.Proofs.FrameCounts
import Cosmac.Proofs.Window.Handling
import Cosmac.Proofs.Window.Closing
import Cosmac.Proofs.Window.Tone
import Cosmac.Proofs.Window.Headless
import Cosmac.Proofs.KeyWaits
import Cosmac.Proofs.Deeds
import Cosmac.Proofs.Switches
import Cosmac.Proofs.Speakers
import Cosmac.Proofs.FailedFrames
import Cosmac.Proofs.ToneTiming
import Cosmac.Proofs.Window.Keypad
import Cosmac.Proofs.Footprints
import Cosmac.Proofs.Accounts
import Cosmac.Proofs.RandomBytes
import Cosmac.Proofs.Window.Canvas
import Cosmac.Proofs.Arithmetic
import Cosmac.Proofs.DrawingOrder
import Cosmac.Proofs.Clipping
import Cosmac.Proofs.Blocks
import Cosmac.Proofs.ControlFlow
import Cosmac.Proofs.Waiting
import Cosmac.Proofs.Rewriting
import Cosmac.Proofs.Dialect.Acceptance
import Cosmac.Proofs.Dialect.Refusals
import Cosmac.Proofs.Dialect.Overrides
import Cosmac.Proofs.Loading
import Cosmac.Proofs.Waves
import Cosmac.Proofs.FrameRuns
import Cosmac.Proofs.Command.Headless
import Cosmac.Proofs.Rendering
import Cosmac.Proofs.Logging
