import Hotpatch.Proofs.Code.Cutting
import Mathlib.Order.Bounds.Defs

/-! # Shortest forms

An instruction is written in as many bytes as its width says, and it is read from these, but never from
fewer.

* **`Instruction.exists_encode`** — an instruction within reach can be written, whatever the table.
* **`Instruction.size_of_read`** — what is read as an instruction takes at least its width.
* **`Instruction.isLeast_width`** — so the width is the least number of bytes.
* **`encode_shortest`** — widths, writing and reading agree on all instructions. -/

namespace Hotpatch

namespace Instruction

variable {tokens t t' : TokenTable} {i : Instruction Int} {source size : Nat} {bytes rest : List UInt8}

/-- **What is encoded** is as long as the width says, and is read back with the table that was left. -/
theorem reads_of_encode (encoded : i.encode source t = .ok (bytes, t')) :
    bytes.length = i.width ∧ (t'.Small → i.targets.length < 4294967296 →
      ∀ source, (Instruction.read t' source).Reads bytes (i, i.width)) := by
  obtain ⟨-, meant⟩ := assembles_encode source i t bytes t' encoded
  have written := meant t' (.refl t')
  exact ⟨written.length_eq, fun small few source => written.reads small few source⟩

/-- **An instruction within reach can be encoded** with every table. -/
theorem exists_encode (within : i.WithinReach) (source : Nat) (t : TokenTable) :
    ∃ bytes t', i.encode source t = .ok (bytes, t') ∧ bytes.length = i.width := by
  have decides := decides_encode source i
  rw [outOfReach?_eq_none within] at decides
  obtain ⟨bytes, t', encoded⟩ := decides t
  exact ⟨bytes, t', encoded, (reads_of_encode encoded).1⟩

/-- **What is read takes its width** at least, and it can be written in as many bytes. -/
theorem size_of_read (read : Instruction.read tokens source bytes = .ok ((i, size), rest)) :
    ∃ front, bytes = front ++ rest ∧ front.length = size ∧ 1 ≤ size ∧ i.width ≤ size ∧ i.WithinReach := by
  obtain ⟨front, whole, rfl, room⟩ := takes_read source bytes _ rest read
  have admitted := admitted_of_yields ⟨bytes, rest, read⟩
  exact ⟨front, whole, rfl, room, admitted.width_le, admitted.within⟩

/-- One instruction has too few operands for a large table. -/
theorem small_operands (i : Instruction Int) : (TokenTable.empty.extend i.operands).Small := by
  have one : i.operands.strings.length ≤ 1 ∧ i.operands.types.length ≤ 1 ∧ i.operands.methods.length ≤ 1 := by
    cases i <;> simp [operands, TokenTable.empty]
  have few {α : Type} [DecidableEq α] {values : List α} (one : values.length ≤ 1) :
      values.dedup.length < 16777216 :=
    Nat.lt_of_le_of_lt ((List.dedup_sublist values).length_le.trans one) (by decide)
  exact TokenTable.small_extend_empty (few one.1) (few one.2.1) (few one.2.2)

/-- **The width is the least** number of bytes from which an instruction is read, with any tokens. -/
theorem isLeast_width (within : i.WithinReach) (few : i.targets.length < 4294967296) :
    IsLeast {size | ∃ tokens source bytes rest, Instruction.read tokens source bytes = .ok ((i, size), rest)}
      i.width := by
  constructor
  · -- What is encoded with the empty table is read with the one row that is left.
    obtain ⟨bytes, t', encoded, -⟩ := exists_encode within 0 .empty
    obtain ⟨rfl, -⟩ := assembles_encode 0 i .empty bytes t' encoded
    exact ⟨_, 0, bytes ++ [], [], (reads_of_encode encoded).2 i.small_operands few 0 []⟩
  · -- Other tokens and longer forms read nothing from fewer bytes.
    rintro size ⟨tokens, source, bytes, rest, read⟩
    obtain ⟨-, -, -, -, width, -⟩ := size_of_read read
    exact width

/-- **Widths, writing and reading agree.** What an instruction is encoded to is as long as its width says and is
read back, in front of any bytes, with the table that was left, as long as this table and the instruction are not
too large. What is read as an instruction takes a byte and its width at least, and encoding the instruction, with
whatever table, gives no more bytes; of any number of bytes from which an instruction is read, the width is the
least. -/
theorem encode_shortest :
    (∀ (i : Instruction Int) (source : Nat) (t t' : TokenTable) (bytes : List UInt8),
      i.encode source t = .ok (bytes, t') → bytes.length = i.width
        ∧ (t'.Small → i.targets.length < 4294967296 → ∀ (source : Nat) (rest : List UInt8),
          Instruction.read t' source (bytes ++ rest) = .ok ((i, i.width), rest)))
    ∧ (∀ (tokens : TokenTable) (source : Nat) (bytes : List UInt8) (i : Instruction Int) (size : Nat)
        (rest : List UInt8), Instruction.read tokens source bytes = .ok ((i, size), rest) →
      (∃ front, bytes = front ++ rest ∧ front.length = size) ∧ 1 ≤ size ∧ i.width ≤ size
        ∧ ∀ source t, ∃ shortest t', i.encode source t = .ok (shortest, t') ∧ shortest.length ≤ size)
    ∧ ∀ i : Instruction Int, i.WithinReach → i.targets.length < 4294967296 →
      IsLeast {size | ∃ tokens source bytes rest,
        Instruction.read tokens source bytes = .ok ((i, size), rest)} i.width := by
  refine ⟨fun i source t t' bytes encoded => reads_of_encode encoded, ?_, fun i => isLeast_width⟩
  intro tokens source bytes i size rest read
  obtain ⟨front, whole, length, room, width, within⟩ := size_of_read read
  refine ⟨⟨front, whole, length⟩, room, width, fun source t => ?_⟩
  obtain ⟨shortest, t', encoded, fewest⟩ := exists_encode within source t
  exact ⟨shortest, t', encoded, fewest.trans_le width⟩

/-- A string that gets the second row of a table, and a constant in its longest form that needs one byte only. -/
theorem encode_shortest_forms :
    (∃ bytes t', (ldstr "a" : Instruction Int).encode 7 ⟨["b"], [], []⟩ = .ok (bytes, t') ∧ bytes.length = 5
      ∧ Instruction.read t' 0 (bytes ++ [0x2a]) = .ok ((ldstr "a", 5), [0x2a]))
    ∧ (∃ shortest t', (ldcI4 8 : Instruction Int).encode 0 .empty = .ok (shortest, t') ∧ shortest.length ≤ 5)
    ∧ IsLeast {size | ∃ tokens source bytes rest,
      Instruction.read tokens source bytes = .ok ((ldcI4 8, size), rest)} 1 := by
  obtain ⟨written, taken, least⟩ := encode_shortest
  have read : Instruction.read .empty 3 [0x20, 8, 0, 0, 0, 0x2a] = .ok ((ldcI4 8, 5), [0x2a]) := rfl
  obtain ⟨-, -, -, shortest⟩ := taken _ _ _ _ _ _ read
  refine ⟨⟨_, _, rfl, ?_⟩, shortest 0 .empty, least (ldcI4 8) trivial (by decide)⟩
  obtain ⟨length, back⟩ := written (ldstr "a") 7 ⟨["b"], [], []⟩ _ _ rfl
  exact ⟨length, back ⟨by decide, by decide, by decide⟩ (by decide) 0 [0x2a]⟩

end Instruction

end Hotpatch
