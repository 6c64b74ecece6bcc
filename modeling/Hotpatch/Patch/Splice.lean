import Hotpatch.Patch.Preamble

/-! # Splicing

Putting a preamble in front of a body. The instructions of the body keep their handles and their
order, and the offsets have to be recomputed afterwards.

* **`Body.accept`** — the instructions that may be put in, with their handles.
* **`Body.splice`** — the body with the preamble in front, and where it starts now.

A splice that fails leaves the instructions in the body that it had already put in. -/

namespace Hotpatch

/-- What a splice **did**. -/
structure Spliced where
  /-- Where the method starts now. -/
  entry : Handle
  /-- Where it started before. -/
  resume : Handle
  /-- How many instructions were put in. -/
  inserted : Nat
deriving Repr, DecidableEq, Inhabited

namespace Body

/-- **Accept** instructions one after the other, under handles from `count` on. Each may branch to
those that are there before it, and the first that branches elsewhere ends it with a fault. Handles are
given as in `Body.place`, and with its bound. -/
def accept (count : Nat) : List (Instruction Handle) → List Placed × Except Fault Unit
  | [] => ([], .ok ())
  | instruction :: rest =>
    match checkTargets count instruction with
    | .error fault => ([], .error fault)
    | .ok () =>
      let (placed, result) := accept (count + 1) rest
      (⟨⟨count⟩, 0, instruction⟩ :: placed, result)

/-- **Splice** a preamble in front of the first instruction, which has to be the one it resumes. -/
def splice (b : Body) (p : Preamble) : Body × Except Fault Spliced :=
  match b.first? with
  | none => (b, .error .emptyBody)
  | some first =>
    if p.resume ≠ first then (b, .error (.unknownInstruction p.resume))
    else
      match accept b.code.length p.instructions with
      | (placed, .error fault) => ({ b with code := placed ++ b.code }, .error fault)
      | ([], .ok ()) => (b, .ok ⟨first, first, 0⟩)
      | (entry :: placed, .ok ()) =>
        ({ b with maxStack := max b.maxStack p.maxStack, code := entry :: placed ++ b.code },
          .ok ⟨entry.handle, first, p.instructions.length⟩)

end Body

end Hotpatch
