import Hotpatch.Proofs.Code.Renumbering

/-! # Bodies as bytes

What is written for the code of a well-formed body.

* **`Body.relative`** — the instructions over displacements.
* **`Body.fault?`**, **`decides_encode`** — whether a body can be encoded does not depend on the
  tokens.
* **`exists_chunks_of_encode`** — code that was encoded is the bytes of the instructions side by side.
* **`assembles_encode`** — what encoding interns and writes.
* **`Body.displacement_eq_offsetDistance`** — a displacement is the distance in the table of the offsets, and
  the handles of encoded bodies are their positions (`WellFormed.ofPosition_index_of_encode`).
* **`emits_encode`**, **`interns_encode`** — what it emits and interns for bodies of any kind. -/

namespace Hotpatch

open Instruction (Written)

namespace Body

variable {b : Body}

/-! ## (1) Encoding -/

/-- Where an instruction is, as a number; zero for handles of other bodies. -/
def offsetOf (b : Body) (handle : Handle) : Nat :=
  (b.offset? handle).getD 0

/-- An instruction **over displacements** from its end. -/
def relative (b : Body) (placed : Placed) : Instruction Int :=
  placed.instruction.relabel fun target =>
    (b.offsetOf target - (placed.offset + placed.instruction.width : Nat) : Int)

/-- The **operands** of a body, in the order of the layout. -/
def operands (b : Body) : TokenTable :=
  .collect (fun placed => placed.instruction.operands) b.code

/-- The **fault** for which a body cannot be encoded: offsets that are not current, then too much
code, then the first displacement that is out of reach. -/
def fault? (b : Body) : Option Fault :=
  if b.offsetsAreCurrent = false then some .staleOffsets
  else if maxCodeSize < b.codeSize then some (.codeTooLarge b.codeSize)
  else b.code.findSome? fun placed => (b.relative placed).outOfReach? placed.offset

/-- Without a fault the offsets are current and the code is not too large. -/
theorem current_of_fault?_eq_none (none : b.fault? = none) :
    b.offsetsAreCurrent = true ∧ b.codeSize ≤ maxCodeSize := by
  rw [fault?] at none
  cases current : b.offsetsAreCurrent with
  | false =>
    rw [if_pos current] at none
    cases none
  | true =>
    rw [if_neg (by rw [current]; decide)] at none
    refine ⟨rfl, Nat.le_of_not_lt fun large => ?_⟩
    rw [if_pos large] at none
    cases none

/-- In a well-formed body the offset of each handle is found at its index. -/
theorem WellFormed.displacement_eq (wf : b.WellFormed) (stop : Nat) {target : Handle}
    (inside : target.index < b.code.length) :
    displacement b.offsets stop target = .ok (b.offsetOf target - stop) := by
  obtain ⟨position, placed, here, rfl⟩ := wf.exists_position inside
  rw [displacement, offsetOf, getElem?_offsets, if_pos inside, offset?_of_getElem? wf.distinct here]
  rfl

/-- The offset of the handle at a position is the one at the position. -/
theorem WellFormed.offsetOf_of_mem (wf : b.WellFormed) {placed : Placed} (mem : placed ∈ b.code) :
    b.offsetOf placed.handle = placed.offset := by
  obtain ⟨position, here⟩ := List.mem_iff_getElem?.mp mem
  rw [offsetOf, offset?_of_getElem? wf.distinct here, Option.getD_some]

/-- No instruction stops behind the end of the code. -/
theorem stop_le_codeSize (current : b.offsetsAreCurrent = true) {placed : Placed}
    (mem : placed ∈ b.code) : placed.offset + placed.instruction.width ≤ b.codeSize := by
  obtain ⟨position, here⟩ := List.mem_iff_getElem?.mp mem
  rw [stop_eq current here, codeSize_eq current]
  exact startOf_le_sum _ _

/-- All instructions start in the code. -/
theorem WellFormed.offsetOf_lt (wf : b.WellFormed) (current : b.offsetsAreCurrent = true)
    {handle : Handle} (inside : handle.index < b.code.length) : b.offsetOf handle < b.codeSize := by
  obtain ⟨position, placed, here, rfl⟩ := wf.exists_position inside
  have mem := List.mem_of_getElem? here
  have stop := stop_le_codeSize current mem
  have width := placed.instruction.width_pos
  rw [wf.offsetOf_of_mem mem]
  omega

/-- **A displacement is a distance of offsets**, as 64 bits hold all offsets in code that is not too large. -/
theorem displacement_eq_offsetDistance (current : b.offsetsAreCurrent = true) (size : b.codeSize ≤ maxCodeSize)
    {placed : Placed} (mem : placed ∈ b.code) (target : Handle) :
    displacement b.offsets (placed.offset + placed.instruction.width) target
      = match b.offsets[target.index]?.join with
        | some offset => .ok (offsetDistance offset (placed.offset + placed.instruction.width))
        | none => .error (.danglingTarget target) := by
  rw [displacement, getElem?_offsets]
  split_ifs with inside
  · rw [Option.join_some]
    cases found : b.offset? target with
    | none => rfl
    | some offset =>
      obtain ⟨other, there, rfl⟩ := Option.map_eq_some_iff.mp found
      have stop := stop_le_codeSize current mem
      have start := stop_le_codeSize current (List.mem_of_find?_eq_some there)
      rw [maxCodeSize] at size
      exact congrArg Except.ok (offsetDistance_of_lt (by omega) (by omega)).symm
  · rfl

/-- **Long branches reach everywhere** in code that is not too large. -/
theorem WellFormed.reaches_long (wf : b.WellFormed) (current : b.offsetsAreCurrent = true)
    (size : b.codeSize ≤ maxCodeSize) {placed : Placed} (mem : placed ∈ b.code) {target : Handle}
    (inside : target.index < b.code.length) :
    Reach.long.Reaches (b.offsetOf target - (placed.offset + placed.instruction.width : Nat)) := by
  have source := stop_le_codeSize current mem
  have goal := wf.offsetOf_lt current inside
  rw [maxCodeSize] at size
  constructor <;> omega

/-- The instructions of a well-formed body are encoded over displacements. -/
theorem WellFormed.encodePlaced_eq (wf : b.WellFormed) {placed : Placed} (mem : placed ∈ b.code) :
    encodePlaced b.offsets placed = (b.relative placed).encode placed.offset := by
  have relative := Instruction.mapLabels_of_forall fun target hit =>
    wf.displacement_eq (placed.offset + placed.instruction.width) (wf.targets placed mem target hit)
  funext t
  rw [encodePlaced, relative]
  rfl

/-- **When a body cannot be encoded** is decided by the body alone. -/
theorem WellFormed.decides_encode (wf : b.WellFormed) : b.encode.Decides b.fault? := by
  have code : (b.code.mapM (encodePlaced b.offsets)).Decides
      (b.code.findSome? fun placed => (b.relative placed).outOfReach? placed.offset) := by
    refine Assembler.Decides.mapM fun placed mem => ?_
    rw [wf.encodePlaced_eq mem]
    exact Instruction.decides_encode placed.offset _
  rw [encode, fault?]
  cases current : b.offsetsAreCurrent with
  | false => exact fun t => rfl
  | true =>
    by_cases large : maxCodeSize < b.codeSize
    · rw [if_neg (by decide), if_pos large, if_pos large]
      exact fun t => rfl
    · rw [if_neg (by decide), if_neg large, if_neg large]
      exact code.bind_pure _

/-- What encoding an instruction of a body gives: the bytes of the instruction over displacements. -/
theorem WellFormed.assembles_encodePlaced (wf : b.WellFormed) {placed : Placed} (mem : placed ∈ b.code) :
    (encodePlaced b.offsets placed).Assembles placed.instruction.operands fun u =>
      Written u (b.relative placed) := by
  rw [wf.encodePlaced_eq mem, ← Instruction.operands_relabel]
  exact Instruction.assembles_encode placed.offset _

/-- **Code that was encoded** is the bytes of the instructions, encoded one after the other. -/
theorem exists_chunks_of_encode {t t' : TokenTable} {bytes : List UInt8}
    (encoded : b.encode t = .ok (bytes, t')) :
    b.offsetsAreCurrent = true ∧ b.codeSize ≤ maxCodeSize
      ∧ ∃ chunks, b.code.mapM (encodePlaced b.offsets) t = .ok (chunks, t') ∧ bytes = chunks.flatten := by
  rw [encode] at encoded
  cases current : b.offsetsAreCurrent with
  | false =>
    rw [current] at encoded
    cases encoded
  | true =>
    by_cases large : maxCodeSize < b.codeSize
    · rw [current, if_neg (by decide), if_pos large] at encoded
      cases encoded
    · rw [current, if_neg (by decide), if_neg large] at encoded
      obtain ⟨chunks, _, code, returned⟩ := Step.bind_eq_ok_iff.mp encoded
      obtain ⟨rfl, rfl⟩ := Prod.mk.inj (Except.ok.inj returned)
      exact ⟨rfl, Nat.le_of_not_lt large, chunks, code, rfl⟩

/-- **Code that can be written** has so few instructions that no handle is cut down. -/
theorem WellFormed.ofPosition_index_of_encode (wf : b.WellFormed) {t t' : TokenTable} {bytes : List UInt8}
    (encoded : b.encode t = .ok (bytes, t')) {placed : Placed} (mem : placed ∈ b.code) :
    .ofPosition placed.handle.index = placed.handle := by
  obtain ⟨current, size, -⟩ := exists_chunks_of_encode encoded
  rw [codeSize_eq current, maxCodeSize] at size
  have few := length_le_sum_widths b.code
  exact wf.ofPosition_index (by omega) mem

/-- **What encoding a body gives** comes from what encoding its instructions does: their chunks side by side,
where the offsets are current and the code is not too large. -/
theorem assembles_encode_of_forall {means : TokenTable → Placed → List UInt8 → Prop}
    (each : ∀ placed ∈ b.code,
      (encodePlaced b.offsets placed).Assembles placed.instruction.operands fun u => means u placed) :
    b.encode.Assembles b.operands fun u bytes =>
      b.offsetsAreCurrent = true ∧ b.codeSize ≤ maxCodeSize ∧ ∃ chunks, bytes = chunks.flatten
        ∧ List.Forall₂ (means u) b.code chunks := by
  intro t bytes t' done
  obtain ⟨current, size, chunks, code, rfl⟩ := exists_chunks_of_encode done
  obtain ⟨table, meant⟩ := Assembler.Assembles.mapM each t chunks t' code
  exact ⟨table, fun u grown => ⟨current, size, chunks, rfl, meant u grown⟩⟩

/-- **The code of a well-formed body** is the bytes of its instructions over displacements. -/
theorem WellFormed.assembles_encode (wf : b.WellFormed) :
    b.encode.Assembles b.operands fun u bytes =>
      b.offsetsAreCurrent = true ∧ b.codeSize ≤ maxCodeSize ∧ ∃ chunks, bytes = chunks.flatten
        ∧ List.Forall₂ (fun placed => Written u (b.relative placed)) b.code chunks :=
  assembles_encode_of_forall fun _ mem => wf.assembles_encodePlaced mem

/-- Bytes that are **emitted** for an instruction of a body: those of the instruction over displacements, which are
counted from where its width ends. That is as many bytes as are emitted. -/
def Emitted (offsets : Array (Option Nat)) (placed : Placed) (bytes : List UInt8) : Prop :=
  ∃ i t t', placed.instruction.mapLabels (displacement offsets (placed.offset + placed.instruction.width)) = .ok i
    ∧ i.encode placed.offset t = .ok (bytes, t') ∧ i.width = placed.instruction.width ∧ bytes.length = i.width

/-- **What encoding an instruction emits**, wherever its targets are. -/
theorem emits_encodePlaced (offsets : Array (Option Nat)) (placed : Placed) :
    (encodePlaced offsets placed).Assembles placed.instruction.operands fun _ => Emitted offsets placed := by
  intro t bytes t' done
  rw [encodePlaced] at done
  cases relative : placed.instruction.mapLabels
      (displacement offsets (placed.offset + placed.instruction.width)) with
  | error fault =>
    rw [relative] at done
    cases done
  | ok i =>
    rw [relative] at done
    obtain ⟨-, erased⟩ := Instruction.targets_of_mapLabels relative
    have width := Instruction.eq_of_erase_eq Instruction.width_relabel erased
    rw [← Instruction.operands_of_mapLabels relative]
    obtain ⟨table, written⟩ := Instruction.assembles_encode placed.offset i t bytes t' done
    exact ⟨table, fun _ _ => ⟨i, t, t', relative, done, width, (written t' (.refl t')).length_eq⟩⟩

/-- **What encoding a body emits**, well formed or not. -/
theorem emits_encode (b : Body) : b.encode.Assembles b.operands fun _ code =>
    b.offsetsAreCurrent = true ∧ b.codeSize ≤ maxCodeSize ∧ ∃ chunks, code = chunks.flatten
      ∧ List.Forall₂ (Emitted b.offsets) b.code chunks :=
  assembles_encode_of_forall fun placed _ => emits_encodePlaced b.offsets placed

/-- **Encoding interns the operands** of a body, well formed or not. -/
theorem interns_encode (b : Body) : b.encode.Assembles b.operands fun _ _ => True :=
  (emits_encode b).imp fun _ _ _ => trivial

end Body

end Hotpatch
