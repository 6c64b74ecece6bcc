/-! # Handles

A handle names an instruction of a body for as long as the body lives: the first instruction added
is number zero, the next one number one. -/

namespace Hotpatch

/-- A **handle**: the number an instruction got when it was added. Handles are written in 32 bits, and
bodies are taken to have no more than 2³² instructions, of which each has its own. -/
structure Handle where
  index : Nat
deriving Repr, DecidableEq, Inhabited

namespace Handle

/-- **Handle of a position** in a list of instructions. Handles are 32 bits wide, and a larger
position is cut down to that. -/
def ofPosition (position : Nat) : Handle :=
  ⟨position % 4294967296⟩

/-- A position that fits into 32 bits is not cut down. -/
theorem ofPosition_of_lt {position : Nat} (short : position < 4294967296) :
    ofPosition position = ⟨position⟩ := by
  rw [ofPosition, Nat.mod_eq_of_lt short]

/-- **Handle text**: an `i` and the number. -/
def text (h : Handle) : String :=
  "i" ++ toString h.index

end Handle

end Hotpatch
