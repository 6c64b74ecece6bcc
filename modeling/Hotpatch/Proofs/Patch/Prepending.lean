import Hotpatch.Proofs.Code.Decoded
import Hotpatch.Proofs.Patch.Splicing

/-! # Patched bodies

A body with a preamble in front of it, and what that does to handles, offsets and displacements.

* **`Body.prepend`** — the body that a splice leaves; `Body.patched` is the same with its offsets
  recomputed.
* **`WellFormed.prepend`**, **`WellFormed.patched`** — patched bodies are well formed.
* **`Body.code_patched`**, **`WellFormed.relative_patched`** — the old instructions are shifted by the
  size of the preamble, and their displacements stay.
* **`WellFormed.fault?_patched`** — so a patched body can be encoded if the body could, unless it is
  too large now.
* **`WellFormed.rank_patched`** — in the layout the old instructions are as many places further on as
  there are instructions in the preamble. -/

namespace Hotpatch

/-- The **size** of a preamble: the bytes that its instructions take. -/
def Preamble.size (p : Preamble) : Nat :=
  (p.instructions.map Instruction.width).sum

namespace Body

/-- A body with a preamble **in front**, as a splice leaves it. -/
def prepend (b : Body) (p : Preamble) : Body :=
  { b with
    maxStack := max b.maxStack p.maxStack
    code := enlist b.code.length p.instructions ++ b.code }

/-- A **patched** body: with a preamble in front, and with its offsets recomputed. -/
def patched (b : Body) (p : Preamble) : Body :=
  (b.prepend p).recomputeOffsets

variable {b : Body} {p : Preamble} {t : MethodTarget} {registry : PatchRegistry} {first : Handle}

/-- **The preamble of a method** is prepended by its splice. -/
theorem WellFormed.splice_eq_prepend (wf : b.WellFormed) (starts : b.first? = some first)
    (built : Preamble.build t registry first = .ok p) :
    b.splice p = (b.prepend p, .ok ⟨⟨b.code.length⟩, first, p.instructions.length⟩) :=
  wf.splice_of_build starts built

/-! ## (1) Handles -/

@[simp] theorem length_prepend : (b.prepend p).code.length = p.instructions.length + b.code.length := by
  rw [prepend, List.length_append, length_enlist]

@[simp] theorem length_patched : (b.patched p).code.length = p.instructions.length + b.code.length := by
  rw [patched, recomputeOffsets, length_layOut, length_prepend]

/-- Recomputing the offsets keeps a body well formed. -/
theorem WellFormed.recomputeOffsets (wf : b.WellFormed) : b.recomputeOffsets.WellFormed := by
  have handles := map_layOut (f := (·.handle.index)) (fun _ _ => rfl) 0 b.code
  have instructions := map_layOut (f := (·.instruction)) (fun _ _ => rfl) 0 b.code
  have length := length_layOut 0 b.code
  refine ⟨?_, fun placed mem => ?_⟩
  · rw [Body.recomputeOffsets, handles, length]
    exact wf.handles
  · have inside : placed.instruction ∈ b.code.map (·.instruction) := by
      rw [← instructions]
      exact List.mem_map_of_mem mem
    obtain ⟨other, here, same⟩ := List.mem_map.mp inside
    rw [Body.recomputeOffsets, length, ← same]
    exact wf.targets other here

/-- **A body with a preamble in front is well formed** if the body is, and the preamble branches into
it. -/
theorem WellFormed.prepend (wf : b.WellFormed)
    (below : ∀ i ∈ p.instructions, ∀ target ∈ i.targets, target.index < b.code.length) :
    (b.prepend p).WellFormed := by
  refine ⟨?_, fun placed mem target hit => ?_⟩
  · -- The new handles follow on the old ones.
    have front : (enlist b.code.length p.instructions).map (·.handle.index)
        = (List.range p.instructions.length).map (b.code.length + ·) := by
      refine List.ext_getElem? fun position => ?_
      rw [List.getElem?_map, getElem?_enlist, List.getElem?_map, Option.map_map]
      by_cases bound : position < p.instructions.length
      · rw [List.getElem?_eq_getElem bound, List.getElem?_range bound]
        rfl
      · rw [List.getElem?_eq_none (by omega), List.getElem?_eq_none (by rw [List.length_range]; omega)]
        rfl
    rw [length_prepend, Body.prepend, List.map_append, front, Nat.add_comm, List.range_add]
    exact (List.Perm.append_left _ wf.handles).trans List.perm_append_comm
  · rw [length_prepend]
    rcases List.mem_append.mp mem with new | old
    · have instruction : placed.instruction ∈ p.instructions := by
        rw [← map_instruction_enlist b.code.length p.instructions]
        exact List.mem_map_of_mem new
      have inside := below placed.instruction instruction target hit
      omega
    · have inside := wf.targets placed old target hit
      omega

/-- **Patched bodies are well formed.** -/
theorem WellFormed.patched (wf : b.WellFormed)
    (below : ∀ i ∈ p.instructions, ∀ target ∈ i.targets, target.index < b.code.length) :
    (b.patched p).WellFormed :=
  (wf.prepend below).recomputeOffsets

/-! ## (2) Offsets -/

/-- The preamble as it is **laid out** in front of a body. -/
def placedPreamble (b : Body) (p : Preamble) : List Placed :=
  layOut 0 (enlist b.code.length p.instructions)

@[simp] theorem widths_enlist (count : Nat) (instructions : List (Instruction Handle)) :
    widths (enlist count instructions) = instructions.map Instruction.width := by
  conv_rhs => rw [← map_instruction_enlist count instructions, List.map_map]
  rfl

/-- The instructions of a preamble that was laid out. -/
@[simp] theorem map_instruction_placedPreamble :
    (b.placedPreamble p).map (·.instruction) = p.instructions := by
  rw [placedPreamble, map_layOut fun _ _ => rfl, map_instruction_enlist]

@[simp] theorem length_placedPreamble : (b.placedPreamble p).length = p.instructions.length := by
  rw [placedPreamble, length_layOut, length_enlist]

/-- **The code of a patched body**: the preamble, and behind it the old code, shifted by its size. -/
theorem code_patched (current : b.offsetsAreCurrent = true) :
    (b.patched p).code = b.placedPreamble p
      ++ b.code.map fun placed => { placed with offset := p.size + placed.offset } := by
  have behind := layOut_add current p.size
  rw [Nat.add_zero] at behind
  rw [patched, Body.recomputeOffsets, prepend, layOut_append, widths_enlist, Nat.zero_add,
    ← Preamble.size, behind, placedPreamble]

/-- The offsets of a patched body are current. -/
@[simp] theorem current_patched : (b.patched p).offsetsAreCurrent = true :=
  isLaidOut_layOut 0 _

/-- **The size of a patched body** is that of the preamble and that of the body. -/
theorem codeSize_patched (current : b.offsetsAreCurrent = true) :
    (b.patched p).codeSize = p.size + b.codeSize := by
  rw [codeSize_eq current_patched, codeSize_eq current, patched, Body.recomputeOffsets, widths_layOut,
    prepend, widths, List.map_append, List.sum_append, ← widths, ← widths, widths_enlist, Preamble.size]

/-- **The old instructions** of a patched body, where they are now. -/
theorem getElem?_patched (current : b.offsetsAreCurrent = true) (position : Nat) :
    (b.patched p).code[p.instructions.length + position]?
      = b.code[position]?.map fun placed => { placed with offset := p.size + placed.offset } := by
  rw [code_patched current, List.getElem?_append_right (by rw [length_placedPreamble]; omega),
    length_placedPreamble, Nat.add_sub_cancel_left, List.getElem?_map]

/-- The old instructions of a patched body are among its own. -/
theorem mem_code_patched (current : b.offsetsAreCurrent = true) {placed : Placed}
    (mem : placed ∈ b.code) :
    ({ placed with offset := p.size + placed.offset } : Placed) ∈ (b.patched p).code := by
  rw [code_patched current]
  exact List.mem_append_right _
    (List.mem_map_of_mem (f := fun placed => { placed with offset := p.size + placed.offset }) mem)

section Patched

variable (wf : b.WellFormed) (current : b.offsetsAreCurrent = true)
  (below : ∀ i ∈ p.instructions, ∀ target ∈ i.targets, target.index < b.code.length)

include wf current below

/-- The offset of an old handle is larger by the size of the preamble. -/
theorem WellFormed.offsetOf_patched {handle : Handle} (inside : handle.index < b.code.length) :
    (b.patched p).offsetOf handle = p.size + b.offsetOf handle := by
  obtain ⟨position, placed, here, rfl⟩ := wf.exists_position inside
  have mem := List.mem_of_getElem? here
  rw [wf.offsetOf_of_mem mem]
  exact (wf.patched below).offsetOf_of_mem (mem_code_patched current mem)

/-- **The old displacements stay**, since both ends are shifted alike. -/
theorem WellFormed.relative_patched {placed : Placed} (mem : placed ∈ b.code) :
    (b.patched p).relative { placed with offset := p.size + placed.offset } = b.relative placed := by
  refine Instruction.relabel_congr fun target hit => ?_
  rw [wf.offsetOf_patched current below (wf.targets placed mem target hit)]
  dsimp only
  push_cast
  omega

/-! ## (3) Faults -/

/-- **No instruction of the preamble is out of reach**: its branch is a long one, which reaches
everywhere in code that is not too large. -/
theorem WellFormed.outOfReach?_placedPreamble (built : Preamble.build t registry first = .ok p)
    (small : (b.patched p).codeSize ≤ maxCodeSize) {placed : Placed}
    (mem : placed ∈ b.placedPreamble p) :
    ((b.patched p).relative placed).outOfReach? placed.offset = none := by
  have inCode : placed ∈ (b.patched p).code := by
    rw [code_patched current]
    exact List.mem_append_left _ mem
  have instruction : placed.instruction ∈ p.instructions := by
    rw [← map_instruction_placedPreamble (b := b)]
    exact List.mem_map_of_mem mem
  refine Instruction.outOfReach?_eq_none ?_
  rw [relative]
  rcases Preamble.targets_eq_nil_or_branch_of_build built instruction with noTargets | branch
  · cases i : placed.instruction with
    | branch reach condition target =>
      rw [i] at noTargets
      cases noTargets
    | switch targets =>
      rw [i] at noTargets
      obtain rfl : targets = [] := noTargets
      exact fun _ hit => by cases hit
    | _ => trivial
  · have resume : first.index < (b.patched p).code.length := by
      have inside := below placed.instruction instruction first
        (by rw [branch]; exact List.mem_singleton_self first)
      rw [length_patched]
      omega
    have reaches := (wf.patched below).reaches_long current_patched small inCode resume
    rw [branch, Instruction.relabel_branch]
    rw [branch] at reaches
    exact reaches

/-- **Why a patched body cannot be encoded**: it is too large, or for a branch that was out of reach
before. -/
theorem WellFormed.fault?_patched
    (built : Preamble.build t registry first = .ok p) :
    (b.patched p).fault? = if maxCodeSize < p.size + b.codeSize
      then some (.codeTooLarge (p.size + b.codeSize))
      else b.code.findSome? fun placed =>
        (b.relative placed).outOfReach? (p.size + placed.offset) := by
  have size := codeSize_patched (p := p) current
  rw [fault?, if_neg (by rw [current_patched]; decide), size]
  refine ite_congr rfl (fun _ => rfl) fun small => ?_
  have front : (b.placedPreamble p).findSome? (fun placed =>
      ((b.patched p).relative placed).outOfReach? placed.offset) = none :=
    List.findSome?_eq_none_iff.mpr fun _ mem =>
      wf.outOfReach?_placedPreamble current below built (by omega) mem
  rw [code_patched current, List.findSome?_append, front, Option.none_or, List.findSome?_map]
  refine findSome?_congr fun placed mem => ?_
  rw [Function.comp_apply, wf.relative_patched current below mem]

omit wf current in
/-- **A patched body that was settled** can be encoded unless it is too large now. -/
theorem Settled.fault?_patched (settled : b.Settled)
    (built : Preamble.build t registry first = .ok p) :
    (b.patched p).fault? = if maxCodeSize < (b.patched p).codeSize
      then some (.codeTooLarge (b.patched p).codeSize) else none := by
  have within : b.code.findSome? (fun placed =>
      (b.relative placed).outOfReach? (p.size + placed.offset)) = none := by
    rw [List.findSome?_eq_none_iff]
    exact fun placed mem => Instruction.outOfReach?_eq_none (settled.within placed mem)
  rw [settled.wellFormed.fault?_patched settled.current below built, within,
    codeSize_patched settled.current]

/-! ## (4) Positions -/

/-- **The rank of an old handle** is as much larger as there are instructions in the preamble. -/
theorem WellFormed.rank_patched {handle : Handle} (inside : handle.index < b.code.length) :
    (b.patched p).rank handle = ⟨p.instructions.length + (b.rank handle).index⟩ := by
  obtain ⟨position, placed, here, rfl, rank⟩ := wf.exists_rank inside
  have there := getElem?_patched (p := p) current position
  rw [here, Option.map_some] at there
  have shifted := rank_of_getElem? (wf.patched below).distinct there
  rwa [rank]

end Patched

end Body

end Hotpatch
