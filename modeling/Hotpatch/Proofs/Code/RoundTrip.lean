import Hotpatch.Proofs.Code.DecodeBack
import Hotpatch.Proofs.Metadata.Requests

/-! # Code there and back

The code of a body holds the bytes of each instruction where the offset of the instruction says, and it is
decoded to the same instructions by every table that the one it was encoded with has become since.

* **`slice_of_written`** — where the bytes of an instruction are.
* **`handleAt?_of_cut`** — what is found at an offset of the code.
* **`WellFormed.decodeCode_of_encode`** — the whole way there and back. -/

namespace Hotpatch.Body

open Instruction (Written)
open TokenTable (Request answer)

variable {b : Body} {t t' tokens : TokenTable} {bytes : List UInt8}

/-- **The bytes of an instruction** are those of the code from its offset on, as many as it is wide. -/
theorem slice_of_written (current : b.offsetsAreCurrent = true) {chunks : List (List UInt8)}
    (written : List.Forall₂ (fun placed => Written tokens (b.relative placed)) b.code chunks)
    {position : Nat} {placed : Placed} {chunk : List UInt8} (here : b.code[position]? = some placed)
    (there : chunks[position]? = some chunk) :
    (chunks.flatten.drop placed.offset).take placed.instruction.width = chunk :=
  slice_of_widths current (widths_of_written written) here there

/-- **What is found at an offset** of code that is cut like a body: the instruction that has this offset in
the body, under its position. -/
theorem handleAt?_of_cut (current : b.offsetsAreCurrent = true) {offset : Nat} {handle : Handle} :
    (⟨{ empty with code := b.renumber.code }, b.cut⟩ : DecodedCode).handleAt? offset = some handle
      ↔ ∃ (position : Nat) (placed : Placed), b.code[position]? = some placed
        ∧ placed.offset = offset ∧ handle = ⟨position⟩ := by
  have renumbered (position : Nat) : handleAt? { empty with code := b.renumber.code } position
      = b.code[position]?.map fun _ => ⟨position⟩ := by
    rw [handleAt?, getElem?_renumber, Option.map_map]
    rfl
  rw [DecodedCode.handleAt?, Option.bind_eq_some_iff]
  constructor
  · rintro ⟨position, found, named⟩
    rw [renumbered, Option.map_eq_some_iff] at named
    obtain ⟨placed, here, rfl⟩ := named
    obtain ⟨value, entry⟩ := (OffsetTable.index?_lookup_eq_some_iff b.increasing_cut).mp found
    rw [getElem?_cut current, here] at entry
    exact ⟨position, placed, here, (Prod.mk.inj (Option.some.inj entry)).1, rfl⟩
  · rintro ⟨position, placed, here, rfl, rfl⟩
    rw [lookup_cut current here]
    exact ⟨position, rfl, by rw [renumbered, here]; rfl⟩

/-- **There and back**: code that was encoded is decoded by every table that answered more requests since, as
long as its rows can be named. The instructions are those of the body, at the same offsets, with the
positions of the layout for handles and targets, and found at just these offsets. The code is as large as
the body says, and in it each instruction has the bytes that it was encoded to, with the operands of those
before it in the table, where its offset and its width say. -/
theorem WellFormed.decodeCode_of_encode (wf : b.WellFormed) (encoded : b.encode t = .ok (bytes, t'))
    (rs : List Request) (small : (answer rs t').2.Small) :
    (∃ decoded, decodeCode (answer rs t').2 bytes = .ok decoded
      ∧ decoded.body.code.length = b.code.length
      ∧ (∀ (position : Nat) (placed : Placed), b.code[position]? = some placed →
        decoded.body.code[position]?
          = some ⟨⟨position⟩, placed.offset, placed.instruction.relabel b.rank⟩)
      ∧ ∀ (offset : Nat) (handle : Handle), decoded.handleAt? offset = some handle
        ↔ ∃ (position : Nat) (placed : Placed), b.code[position]? = some placed
          ∧ placed.offset = offset ∧ handle = ⟨position⟩)
    ∧ bytes.length = b.codeSize
    ∧ ∀ (position : Nat) (placed : Placed), b.code[position]? = some placed →
      ∃ after, encodePlaced b.offsets placed
          (t.extend (.collect (fun before => before.instruction.operands) (b.code.take position)))
        = .ok ((bytes.drop placed.offset).take placed.instruction.width, after) := by
  obtain ⟨current, size, chunks, code, rfl⟩ := exists_chunks_of_encode encoded
  have each (placed : Placed) (mem : placed ∈ b.code) := wf.assembles_encodePlaced mem
  have grown : t'.Grows (answer rs t').2 := by
    rw [TokenTable.answer_snd]
    exact TokenTable.grows_extend _ _
  have written := (Assembler.Assembles.mapM each t chunks t' code).2 _ grown
  refine ⟨⟨_, wf.decodeCode_of_written current small size written, List.length_mapIdx,
    fun position placed here => ?_, fun offset handle => handleAt?_of_cut current⟩, ?_,
    fun position placed here => ?_⟩
  · exact (getElem?_renumber b position).trans (by rw [here]; rfl)
  · rw [length_of_written written, codeSize_eq current]
  · obtain ⟨before, chunk, after, front, step, there⟩ := Step.exists_of_mapM code here
    obtain ⟨rfl, -⟩ := Assembler.Assembles.mapM
      (fun other mem => each other (List.mem_of_mem_take mem)) t _ before front
    exact ⟨after, step.trans (by rw [slice_of_written current written here there])⟩

/-- A body whose instructions are not laid out in the order they were added, with jumps to and fro. -/
def woven : Body :=
  { empty with
    code := [⟨⟨2⟩, 0, .ldstr "b"⟩, ⟨⟨0⟩, 5, .branch .short .isTrue ⟨1⟩⟩, ⟨⟨3⟩, 7, .switch [⟨2⟩, ⟨1⟩]⟩,
      ⟨⟨1⟩, 20, .ldcR4 0x7fc00001⟩, ⟨⟨4⟩, 25, .branch .long .always ⟨0⟩⟩, ⟨⟨5⟩, 30, .plain .ret⟩] }

/-- It is encoded with a table that has a string already, and decoded after one more came in. -/
theorem WellFormed.decodeCode_of_encode_woven :
    ∃ bytes t' decoded, woven.WellFormed ∧ woven.encode ⟨["a"], [], []⟩ = .ok (bytes, t')
      ∧ (answer [.string "c", .string "b"] t').2.strings = ["a", "b", "c"]
      ∧ decodeCode (answer [.string "c", .string "b"] t').2 bytes = .ok decoded
      ∧ decoded.body.code[4]? = some ⟨⟨4⟩, 25, .branch .long .always ⟨1⟩⟩
      ∧ decoded.handleAt? 20 = some ⟨3⟩ ∧ bytes.length = 31
      ∧ ∃ after, encodePlaced woven.offsets ⟨⟨0⟩, 5, .branch .short .isTrue ⟨1⟩⟩ ⟨["a", "b"], [], []⟩
        = .ok ((bytes.drop 5).take 2, after) := by
  have wf : woven.WellFormed := ⟨by decide, by decide⟩
  obtain ⟨bytes, encoded⟩ : ∃ bytes, woven.encode ⟨["a"], [], []⟩ = .ok (bytes, ⟨["a", "b"], [], []⟩) :=
    ⟨_, rfl⟩
  have small : (answer [.string "c", .string "b"] ⟨["a", "b"], [], []⟩).2.Small :=
    ⟨by decide, by decide, by decide⟩
  obtain ⟨⟨decoded, back, -, code, found⟩, length, slices⟩ := wf.decodeCode_of_encode encoded _ small
  exact ⟨bytes, _, decoded, wf, encoded, by decide, back, code 4 _ rfl,
    (found 20 ⟨3⟩).mpr ⟨3, _, rfl, rfl, rfl⟩, length, slices 1 _ rfl⟩

end Hotpatch.Body
