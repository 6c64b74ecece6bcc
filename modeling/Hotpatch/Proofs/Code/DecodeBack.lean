import Hotpatch.Proofs.Code.BodyBytes

/-! # Decoding what was encoded

The code of a well-formed body is decoded to the renumbered body, and the table of offsets that comes
with it has every instruction where it was written.

* **`Body.cut`** — the instructions of a body at their offsets.
* **`slice_of_widths`** — where the bytes of an instruction are.
* **`cutOnto_of_written`** — code that was written is cut where the instructions meet.
* **`WellFormed.resolveTarget_eq`** — offsets of targets lead back to their positions.
* **`WellFormed.decodeCode_of_written`** — the whole way back. -/

namespace Hotpatch.Body

open Instruction (Written)

variable {b : Body}

/-! ## (1) Cutting -/

/-- An instruction over the **offsets** of its targets, with its width. -/
def item (b : Body) (placed : Placed) : Nat × Instruction Int :=
  (placed.instruction.width, placed.instruction.relabel fun target => (b.offsetOf target : Int))

/-- The **cut** of a body: its instructions at their offsets. -/
def cut (b : Body) : OffsetTable (Instruction Int) :=
  .ofList (b.code.map b.item)

/-- The widths of the items are those of the instructions. -/
@[simp] theorem map_fst_item (b : Body) (code : List Placed) :
    (code.map b.item).map (·.1) = widths code := by
  rw [List.map_map]
  rfl

/-- An instruction has fewer targets than bytes. -/
theorem length_targets_lt_width {L : Type} (i : Instruction L) : i.targets.length < i.width := by
  cases i with
  | branch reach condition target => cases reach <;> exact Nat.one_lt_succ_succ _
  | switch targets =>
    show targets.length < 5 + 4 * targets.length
    omega
  | _ => exact Instruction.width_pos _

/-- Chunks that are as long as their instructions are wide. -/
theorem map_length_of_widths {code : List Placed} {chunks : List (List UInt8)}
    (each : List.Forall₂ (fun placed chunk => chunk.length = placed.instruction.width) code chunks) :
    chunks.map List.length = widths code := by
  induction each with
  | nil => rfl
  | cons first others ih => rw [List.map_cons, first, ih, widths_cons]

/-- **Where a chunk is** that is as long as its instruction is wide: from the offset of the instruction on. -/
theorem slice_of_widths (current : b.offsetsAreCurrent = true) {chunks : List (List UInt8)}
    (each : List.Forall₂ (fun placed chunk => chunk.length = placed.instruction.width) b.code chunks)
    {position : Nat} {placed : Placed} {chunk : List UInt8} (here : b.code[position]? = some placed)
    (there : chunks[position]? = some chunk) :
    (chunks.flatten.drop placed.offset).take placed.instruction.width = chunk := by
  obtain ⟨_, there', width⟩ := exists_of_forall₂ each here
  obtain rfl := Option.some.inj (there'.symm.trans there)
  -- What comes before is as long as the offset says.
  rw [offsetsAreCurrent_iff.mp current position placed here, ← map_length_of_widths each, ← width]
  exact take_drop_flatten there

/-- The bytes of each instruction are as many as its width says. -/
theorem widths_of_written {tokens : TokenTable} {code : List Placed} {chunks : List (List UInt8)}
    (written : List.Forall₂ (fun placed => Written tokens (b.relative placed)) code chunks) :
    List.Forall₂ (fun placed chunk => chunk.length = placed.instruction.width) code chunks := by
  refine written.imp fun placed chunk here => ?_
  rw [here.length_eq, relative, Instruction.width_relabel]

/-- The bytes of code are as many as the widths say. -/
theorem length_of_written {tokens : TokenTable} {code : List Placed} {chunks : List (List UInt8)}
    (written : List.Forall₂ (fun placed => Written tokens (b.relative placed)) code chunks) :
    chunks.flatten.length = (widths code).sum := by
  rw [List.length_flatten, map_length_of_widths (widths_of_written written)]

/-- Cutting goes on behind an instruction that is read. -/
theorem cutOnto_of_read {tokens : TokenTable} {limit size : Nat}
    {cut : OffsetTable (Instruction Int)} {bytes rest : List UInt8} {i : Instruction Int}
    (some_bytes : bytes ≠ [])
    (reads : Instruction.read tokens cut.total bytes = .ok ((i, size), rest)) :
    cutOnto tokens (limit + 1) cut bytes
      = cutOnto tokens limit (cut.push size (i.relabel ((cut.total : Int) + size + ·))) rest := by
  cases bytes with
  | nil => exact absurd rfl some_bytes
  | cons byte bytes => rw [cutOnto, reads]; exact some_bytes

/-- **Written code is cut** where the instructions meet. -/
theorem cutOnto_of_written {tokens : TokenTable} (small : tokens.Small)
    (current : b.offsetsAreCurrent = true) {done rest : List Placed} {chunks : List (List UInt8)}
    (whole : b.code = done ++ rest)
    (written : List.Forall₂ (fun placed => Written tokens (b.relative placed)) rest chunks)
    (few : ∀ placed ∈ rest, placed.instruction.targets.length < 4294967296) {limit : Nat}
    (enough : rest.length ≤ limit) :
    cutOnto tokens limit (.ofList (done.map b.item)) chunks.flatten = .ok b.cut := by
  induction written generalizing done limit with
  | nil =>
    rw [List.append_nil] at whole
    rw [List.flatten_nil, cutOnto, cut, whole]
  | @cons placed chunk rest chunks first others ih =>
    obtain ⟨limit, rfl⟩ : ∃ less, limit = less + 1 := Nat.exists_eq_succ_of_ne_zero (by
      intro none
      rw [none] at enough
      cases enough)
    have here : b.code[done.length]? = some placed := by
      rw [whole, List.getElem?_append_right (Nat.le_refl _), Nat.sub_self, List.getElem?_cons_zero]
    -- What is done ends where this instruction starts.
    have total : (OffsetTable.ofList (done.map b.item)).total = placed.offset := by
      rw [OffsetTable.total_ofList, map_fst_item, offsetsAreCurrent_iff.mp current _ placed here, whole,
        startOf_widths_append]
    have width : (b.relative placed).width = placed.instruction.width :=
      Instruction.width_relabel _ _
    have targets : (b.relative placed).targets.length < 4294967296 := by
      rw [relative, Instruction.targets_relabel, List.length_map]
      exact few placed List.mem_cons_self
    have some_bytes : chunk ++ chunks.flatten ≠ [] := by
      refine List.append_ne_nil_of_left_ne_nil (List.ne_nil_of_length_pos ?_) _
      rw [first.length_eq]
      exact Instruction.width_pos _
    have reads := first.reads small targets placed.offset chunks.flatten
    -- Counted from the end of the instruction, the displacements are the offsets of the targets.
    have absolute : (b.relative placed).relabel
        ((placed.offset : Int) + ((b.relative placed).width : Nat) + ·) = (b.item placed).2 := by
      rw [width, relative, Instruction.relabel_relabel]
      refine Instruction.relabel_congr fun target _ => ?_
      push_cast
      omega
    have next := ih (show b.code = (done ++ [placed]) ++ rest by rw [whole, List.append_cons])
      (fun other mem => few other (List.mem_cons_of_mem placed mem))
      (Nat.le_of_succ_le_succ enough)
    rw [List.map_append, List.map_singleton, item, OffsetTable.ofList_append_singleton] at next
    rw [← total] at reads
    rw [List.flatten_cons, cutOnto_of_read some_bytes reads, total, absolute, width]
    exact next

/-! ## (2) Targets -/

section Targets

variable (wf : b.WellFormed) (current : b.offsetsAreCurrent = true)

omit wf current in
/-- In the cut later instructions start later. -/
@[simp] theorem increasing_cut (b : Body) : b.cut.Increasing := by
  refine OffsetTable.increasing_ofList fun item mem => ?_
  obtain ⟨placed, -, rfl⟩ := List.mem_map.mp mem
  exact placed.instruction.width_pos

include wf current

omit wf in
/-- In the cut the instructions stand at their offsets. -/
@[simp, grind =] theorem getElem?_cut (position : Nat) : b.cut.entries[position]?
    = b.code[position]?.map fun placed => (placed.offset, (b.item placed).2) := by
  rw [cut, OffsetTable.getElem?_ofList, List.getElem?_map, map_fst_item]
  cases here : b.code[position]? with
  | none => rfl
  | some placed =>
    rw [Option.map_some, Option.map_some, Option.map_some,
      offsetsAreCurrent_iff.mp current position placed here]

omit wf in
/-- In the cut an instruction is found at the start of its code, under its position. -/
theorem lookup_cut {position : Nat} {placed : Placed}
    (here : b.code[position]? = some placed) :
    b.cut.lookup placed.offset = .found position (b.item placed).2 := by
  rw [OffsetTable.lookup_eq_found_iff b.increasing_cut, getElem?_cut current, here, Option.map_some]

/-- The handles of a body have the offsets of their instructions. -/
theorem WellFormed.offsetOf_eq {position : Nat} {placed : Placed}
    (here : b.code[position]? = some placed) :
    b.offsetOf placed.handle = startOf (widths b.code) position := by
  rw [offsetOf, offset?_of_getElem? wf.distinct here, Option.getD_some,
    offsetsAreCurrent_iff.mp current position placed here]

/-- **The offset of a target leads back to its position.** -/
theorem WellFormed.resolveTarget_eq {target : Handle} (inside : target.index < b.code.length)
    (source : Nat) :
    resolveTarget b.cut source (b.offsetOf target : Int) = .ok (b.rank target).index := by
  obtain ⟨position, placed, here, rfl, rank⟩ := wf.exists_rank inside
  have starts := wf.offsetOf_eq current here
  have offset := offsetsAreCurrent_iff.mp current position placed here
  have total : b.cut.total = (widths b.code).sum := by
    rw [cut, OffsetTable.total_ofList, map_fst_item]
  -- The target starts before the code ends, since it takes up room itself.
  have room : startOf (widths b.code) position < (widths b.code).sum := by
    obtain ⟨bound, -⟩ := List.getElem?_eq_some_iff.mp here
    have bound' : position < (widths b.code).length := by rwa [widths, List.length_map]
    rw [← startOf_length]
    exact startOf_lt (widths_pos b.code) bound' bound'
  rw [resolveTarget, if_neg (by rw [starts, total]; omega), starts, Int.toNat_natCast, ← offset,
    lookup_cut current here, rank]
  rfl

/-! ## (3) Decoding -/

/-- **Decoding what was encoded** gives the code of the renumbered body, and the cut of the body. -/
theorem WellFormed.decodeCode_of_written {tokens : TokenTable} (small : tokens.Small)
    (size : b.codeSize ≤ maxCodeSize) {chunks : List (List UInt8)}
    (written : List.Forall₂ (fun placed => Written tokens (b.relative placed)) b.code chunks) :
    decodeCode tokens chunks.flatten
      = .ok ⟨{ empty with code := b.renumber.code }, b.cut⟩ := by
  rw [codeSize_eq current, maxCodeSize] at size
  have few : ∀ placed ∈ b.code, placed.instruction.targets.length < 4294967296 := by
    intro placed mem
    have targets := length_targets_lt_width placed.instruction
    have part : placed.instruction.width ≤ (widths b.code).sum :=
      le_sum_of_mem (List.mem_map.mpr ⟨placed, mem, rfl⟩)
    omega
  have enough : b.code.length ≤ chunks.flatten.length := by
    rw [length_of_written written]
    exact length_le_sum_widths b.code
  have cuts : cutCode tokens chunks.flatten = .ok b.cut :=
    cutOnto_of_written small current (List.nil_append _).symm written few enough
  have resolves : b.cut.entries.toList.mapM (fun entry =>
        entry.2.mapLabels (resolveTarget b.cut entry.1))
      = .ok (b.code.map fun placed =>
          placed.instruction.relabel fun target => (b.rank target).index) := by
    rw [cut, OffsetTable.toList_entries_ofList]
    refine OffsetTable.mapM_laidOut (fun source placed mem => ?_) 0
    exact Instruction.mapLabels_relabel_of_forall fun target hit =>
      wf.resolveTarget_eq current (wf.targets placed mem target hit) source
  have bodies := wf.ofInstructions_ranks current
    (by have := length_le_sum_widths b.code; omega)
  rw [decodeCode, cuts]
  refine (Attempt.bind_of_ok resolves).trans ?_
  rw [bodies]
  rfl

end Targets

end Hotpatch.Body
