import Hotpatch.Proofs.Binary.ReadBack

/-! # Readers of a fixed size

Readers that take the same number of bytes whatever these are: with fewer left they are at the end, and with
enough of them they succeed.

* **`Reader.FixedSize`** — a reader takes so many bytes, and gives something that is related to them.
* **`FixedSize.bind`** — a chain takes as many as its links.
* **`fixedSize_unsigned`**, **`fixedSize_word`** — numbers, of which each has its own bytes. -/

namespace Hotpatch

variable {α β : Type}

namespace Reader

/-- A reader is of a **fixed size** if it reads any bytes of that number, as a value that is related to them,
and finds fewer too short. -/
structure FixedSize (reader : Reader α) (size : Nat) (related : List UInt8 → α → Prop) : Prop where
  short : ∀ bytes, bytes.length < size → reader bytes = .error .unexpectedEnd
  enough : ∀ front, front.length = size → ∃ value, reader.Reads front value ∧ related front value

variable {reader : Reader α} {next : α → Reader β} {size behind : Nat} {related : List UInt8 → α → Prop}
  {after : List UInt8 → β → Prop}

/-- A value that is only returned needs no bytes. -/
theorem fixedSize_pure {value : α} (holds : related [] value) : (pure value : Reader α).FixedSize 0 related := by
  refine ⟨nofun, fun front none => ?_⟩
  obtain rfl := List.eq_nil_of_length_eq_zero none
  exact ⟨value, .pure value, holds⟩

/-- **A chain of fixed sizes** is of the size of all its links. -/
theorem FixedSize.bind (first : reader.FixedSize size related)
    (rest : ∀ value, (next value).FixedSize behind fun back last =>
      ∀ front, related front value → after (front ++ back) last) :
    (reader >>= next).FixedSize (size + behind) after := by
  refine ⟨fun bytes few => ?_, fun bytes length => ?_⟩
  · by_cases less : bytes.length < size
    · exact Step.bind_of_error (first.short bytes less)
    · -- The first link is read, and the others are cut short.
      obtain ⟨value, reads, -⟩ := first.enough (bytes.take size) (by rw [List.length_take]; omega)
      have taken := reads (bytes.drop size)
      rw [List.take_append_drop] at taken
      rw [Step.bind_of_ok taken]
      exact (rest value).short _ (by rw [List.length_drop]; omega)
  · obtain ⟨value, reads, holds⟩ := first.enough (bytes.take size) (by rw [List.length_take]; omega)
    obtain ⟨last, behind, follows⟩ := (rest value).enough (bytes.drop size) (by rw [List.length_drop]; omega)
    have both := reads.bind behind
    have whole := follows _ holds
    rw [List.take_append_drop] at both whole
    exact ⟨last, both, whole⟩

/-- What is done to the value needs no more bytes. -/
theorem FixedSize.bind_pure {f : α → β} (first : reader.FixedSize size related)
    (holds : ∀ front value, related front value → after front (f value)) :
    (reader >>= fun value => pure (f value)).FixedSize size after := by
  show Reader.FixedSize _ (size + 0) _
  refine first.bind fun value => fixedSize_pure fun front related => ?_
  rw [List.append_nil]
  exact holds front value related

/-- The next bytes are as many as asked for. -/
@[simp]
theorem fixedSize_take (size : Nat) : (take size).FixedSize size fun front bytes => front = bytes := by
  refine ⟨fun bytes few => ?_, fun front length => ⟨front, ?_, rfl⟩⟩
  · rw [take, List.splitAt_eq]
    exact if_neg (by rw [List.length_take]; omega)
  · rw [← length]
    exact reads_take front

/-- The next byte is one byte. -/
@[simp] theorem fixedSize_byte : byte.FixedSize 1 fun front b => front = [b] := by
  refine ⟨fun bytes none => ?_, fun front one => ?_⟩
  · obtain rfl := List.eq_nil_of_length_eq_zero (Nat.lt_one_iff.mp none)
    rfl
  · obtain ⟨b, rfl⟩ := List.length_eq_one_iff.mp one
    exact ⟨b, reads_byte b, rfl⟩

/-- **A number** takes as many bytes as its width says, and these are its bytes. -/
@[simp] theorem fixedSize_unsigned (width : Nat) :
    (unsigned width).FixedSize width fun front n => littleEndian width n = front ∧ n < 256 ^ width := by
  refine ⟨fun bytes few => ?_, fun front length => ?_⟩
  · exact Step.bind_of_error ((fixedSize_take width).short bytes few)
  · subst length
    exact ⟨_, (reads_take front).bind_pure ofLittleEndian, littleEndian_ofLittleEndian front,
      ofLittleEndian_lt front⟩

end Reader

open Binary (write)

/-- **A word** takes four bytes, and these are its bytes. -/
@[simp]
theorem fixedSize_word : (Binary.read : Reader UInt32).FixedSize 4 fun front word => write word = front := by
  refine (Reader.fixedSize_unsigned 4).bind_pure (f := UInt32.ofNat) fun front n number => ?_
  obtain ⟨bytes, bound⟩ := number
  have same : (UInt32.ofNat n).toNat = n := UInt32.toNat_ofNat_of_lt bound
  show littleEndian 4 (UInt32.ofNat n).toNat = front
  rw [same, bytes]

/-- **Half a word** takes two bytes, and these are its bytes. -/
@[simp]
theorem fixedSize_half : (Binary.read : Reader UInt16).FixedSize 2 fun front half => write half = front := by
  refine (Reader.fixedSize_unsigned 2).bind_pure (f := UInt16.ofNat) fun front n number => ?_
  obtain ⟨bytes, bound⟩ := number
  have same : (UInt16.ofNat n).toNat = n := UInt16.toNat_ofNat_of_lt bound
  show littleEndian 2 (UInt16.ofNat n).toNat = front
  rw [same, bytes]

end Hotpatch
