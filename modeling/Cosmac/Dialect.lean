/-!
# Dialects

Interpreters of this machine have disagreed about a handful of instructions since the first ones
were written. A dialect is a choice on each point: six switches, each off in the reference
behaviour. The known program corpora each have a dialect of their own, which goes by a name.
-/

namespace Cosmac

/-- The points on which dialects differ. -/
inductive Switch where
  /-- The bitwise operations clear the flag register first. -/
  | vfReset
  /-- Block transfers leave the index behind the block. -/
  | memory
  /-- A frame ends with the first change of the display. -/
  | displayWait
  /-- Sprites are cut off at the edges of the display. -/
  | clipping
  /-- Shifts take their operand from the second register. -/
  | shifting
  /-- The offset jump takes its register from the top of the address. -/
  | jumping
  deriving DecidableEq, Repr

namespace Switch

/-- Every switch, in the order in which they are reported. -/
def all : List Switch :=
  [.vfReset, .memory, .displayWait, .clipping, .shifting, .jumping]

/-- The name of a switch in files and in reports. -/
def name : Switch → String
  | vfReset => "vf_reset"
  | memory => "memory"
  | displayWait => "display_wait"
  | clipping => "clipping"
  | shifting => "shifting"
  | jumping => "jumping"

theorem mem_all (s : Switch) : s ∈ all := by
  cases s <;> decide

end Switch

/-- One choice on each point. -/
structure Dialect where
  vfReset : Bool := false
  memory : Bool := false
  displayWait : Bool := false
  clipping : Bool := false
  shifting : Bool := false
  jumping : Bool := false
  deriving DecidableEq, Repr

namespace Dialect

/-- The position of one switch. -/
def get (d : Dialect) : Switch → Bool
  | .vfReset => d.vfReset
  | .memory => d.memory
  | .displayWait => d.displayWait
  | .clipping => d.clipping
  | .shifting => d.shifting
  | .jumping => d.jumping

/-- The dialect with the given positions. -/
def ofFn (f : Switch → Bool) : Dialect where
  vfReset := f .vfReset
  memory := f .memory
  displayWait := f .displayWait
  clipping := f .clipping
  shifting := f .shifting
  jumping := f .jumping

/-- The switches that are on. -/
def enabled (d : Dialect) : List Switch :=
  Switch.all.filter d.get

/-- One line for each switch. -/
def describe (d : Dialect) : String :=
  "\n".intercalate <| Switch.all.map fun s =>
    "  " ++ s.name ++ ": " ++ if d.get s then "ON" else "OFF"

@[simp] theorem get_ofFn (f : Switch → Bool) (s : Switch) : (ofFn f).get s = f s := by
  cases s <;> rfl

/-- Dialects that agree on every switch are the same. -/
@[ext] theorem ext_get {d e : Dialect} (h : ∀ s, d.get s = e.get s) : d = e := by
  have h1 := h .vfReset
  have h2 := h .memory
  have h3 := h .displayWait
  have h4 := h .clipping
  have h5 := h .shifting
  have h6 := h .jumping
  cases d
  cases e
  simp_all [get]

end Dialect

/-- A dialect that goes by a name. -/
inductive Profile where
  | standard
  | chip8
  | schip
  | xochip
  deriving DecidableEq, Repr

namespace Profile

/-- Every profile, in the order of their names. -/
def all : List Profile :=
  [.chip8, .standard, .schip, .xochip]

/-- The name of a profile. -/
def name : Profile → String
  | standard => "default"
  | chip8 => "chip8"
  | schip => "schip"
  | xochip => "xochip"

/-- The choices that a profile stands for. -/
def dialect : Profile → Dialect
  | standard => {}
  | chip8 =>
    { vfReset := true, memory := true, displayWait := true, clipping := true, shifting := true }
  | schip => { clipping := true, jumping := true }
  | xochip => { memory := true, shifting := true }

/-- The profile of a name, which is written in small letters. -/
def ofName? (name : String) : Option Profile :=
  all.find? fun p => p.name == name

end Profile

end Cosmac
