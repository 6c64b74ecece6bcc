import Hotpatch.Code.Decoding
import Hotpatch.Proofs.Code.Renumbering
import Hotpatch.Proofs.Patch.Inserting
import Hotpatch.Proofs.Patch.Prepending

/-! # Bodies that can be made

All bodies there can be: those made from nothing, from a list of instructions or from bytes, and what any
edits leave of them, whether these succeed or fail.

* **`Edit`** — one operation on a body, and `Edit.apply` what it leaves.
* **`Body.Reachable`** — the bodies that edits lead to.
* **`WellFormed.edit`**, **`Reachable.wellFormed`** — each edit keeps a body well formed, so all of them
  are. -/

namespace Hotpatch

/-- An **edit** of a body. -/
inductive Edit where
  | push (instruction : Instruction Handle)
  | insertBefore (anchor : Handle) (instruction : Instruction Handle)
  | insertAfter (anchor : Handle) (instruction : Instruction Handle)
  | splice (p : Preamble)
  | recomputeOffsets
  /-- Everything but the code may be set at will. -/
  | adjust (maxStack : UInt16) (initLocals : Bool) (locals : List TypeSig) (points : List SequencePoint)

namespace Edit

/-- The body after an **attempt** to add an instruction to it. -/
def attempt (b : Body) : Except Fault (Handle × Body) → Body
  | .ok (_, grown) => grown
  | .error _ => b

/-- **Apply** an edit: what the body is afterwards, also if the edit fails. -/
def apply (b : Body) : Edit → Body
  | push instruction => attempt b (b.push instruction)
  | insertBefore anchor instruction => attempt b (b.insertBefore anchor instruction)
  | insertAfter anchor instruction => attempt b (b.insertAfter anchor instruction)
  | splice p => (b.splice p).1
  | recomputeOffsets => b.recomputeOffsets
  | adjust maxStack initLocals locals points => { b with maxStack, initLocals, locals, points }

end Edit

namespace Body

/-- A **reachable** body: it was made, and then edited any number of times. -/
inductive Reachable : Body → Prop
  | empty : Reachable .empty
  | ofInstructions {instructions : List (Instruction Nat)} {b : Body}
      (made : Body.ofInstructions instructions = .ok b) : Reachable b
  | decoded {tokens : TokenTable} {bytes : List UInt8} {d : DecodedCode}
      (made : decodeCode tokens bytes = .ok d) : Reachable d.body
  | edit {b : Body} (before : Reachable b) (e : Edit) : Reachable (e.apply b)

variable {b : Body}

/-- The empty body is canonical. -/
@[simp] theorem canonical_empty : empty.Canonical :=
  ⟨nofun, rfl, nofun, nofun⟩

/-- An attempt to add an instruction keeps a body well formed. -/
theorem WellFormed.attempt (wf : b.WellFormed) {i : Instruction Handle}
    {added : Except Fault (Handle × Body)} (placing : b.Placing i added) :
    (Edit.attempt b added).WellFormed := by
  cases outcome : added with
  | error fault => exact wf
  | ok grown => exact wf.of_placing placing outcome

/-- **Every edit keeps a body well formed.** -/
theorem WellFormed.edit (wf : b.WellFormed) (e : Edit) : (e.apply b).WellFormed := by
  cases e with
  | push i => exact wf.attempt (b.placing_push i)
  | insertBefore anchor i => exact wf.attempt (b.placing_insertBefore anchor i)
  | insertAfter anchor i => exact wf.attempt (b.placing_insertAfter anchor i)
  | splice p => exact wf.splice p
  | recomputeOffsets => exact wf.recomputeOffsets
  | adjust maxStack initLocals locals points => exact ⟨wf.handles, wf.targets⟩

/-- **Reachable bodies are well formed.** -/
theorem Reachable.wellFormed (reachable : b.Reachable) : b.WellFormed := by
  induction reachable with
  | empty => exact canonical_empty.wellFormed
  | ofInstructions made => exact (canonical_of_ofInstructions made).wellFormed
  | decoded made => exact (canonical_of_decodeCode made).wellFormed
  | edit before e wf => exact wf.edit e

end Body

end Hotpatch
