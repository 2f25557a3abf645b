/-!
# Machine words

The widths that the machine works in. All arithmetic on them wraps, which is what the machine does:
a register holds a byte, the index and the program counter hold twelve-bit addresses, and an
instruction is a sixteen-bit word stored high byte first.
-/

namespace Cosmac

/-- Eight bits: a register, a timer or a cell of memory. -/
abbrev Byte := BitVec 8

/-- Twelve bits: a place in memory. -/
abbrev Addr := BitVec 12

/-- Sixteen bits: an instruction as it stands in memory. -/
abbrev Word := BitVec 16

/-- Four bits: the number of a register, of a key or of a stack slot. -/
abbrev Nibble := BitVec 4

namespace Nibble

/-- Every four-bit value, ascending. -/
def all : List Nibble :=
  (List.range 16).map (BitVec.ofNat 4)

theorem mem_all (k : Nibble) : k ∈ all := by
  simp only [all, List.mem_map, List.mem_range]
  exact ⟨k.toNat, k.isLt, by simp⟩

end Nibble

end Cosmac
