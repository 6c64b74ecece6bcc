import Hotpatch.Proofs.Binary.Consumption
import Hotpatch.Proofs.Binary.FixedSize

/-! # Self-delimiting readers

Readers that know from the bytes themselves where a value ends: what comes behind has no part in it, and a
value that is cut short is missed.

* **`Reader.Delimits`** — a reader takes exactly some bytes, and finds all that are cut short too short.
* **`Reader.SelfDelimiting`** — a reader delimits whatever it reads; `SelfDelimiting.bind` puts the links of
  a chain together, and `FixedSize.selfDelimiting` has it for fixed sizes.
* **`DelimitedBinary`** — layouts that are read so: numbers, strings and lists. -/

namespace Hotpatch

variable {α β : Type}

namespace Reader

/-- A reader **delimits** some bytes as a value: it reads them in front of any others, and no fewer of them
are enough. -/
structure Delimits (reader : Reader α) (bytes : List UInt8) (value : α) : Prop where
  reads : reader.Reads bytes value
  short : ∀ cut, cut <+: bytes → cut ≠ bytes → reader cut = .error .unexpectedEnd

/-- A **self-delimiting** reader delimits whatever it reads. -/
def SelfDelimiting (reader : Reader α) : Prop :=
  reader.Takes reader.Delimits

variable {reader : Reader α} {next : α → Reader β} {bytes back : List UInt8} {value : α} {last : β}

/-! ## (1) Chains -/

/-- Bytes side by side are delimited one after the other. -/
theorem Delimits.bind (front : reader.Delimits bytes value) (behind : (next value).Delimits back last) :
    (reader >>= next).Delimits (bytes ++ back) last := by
  refine ⟨front.reads.bind behind.reads, ?_⟩
  rintro cut ⟨missing, whole⟩ differs
  -- The bytes are cut short in front, or only behind.
  rcases List.append_eq_append_iff.mp whole with ⟨lost, split, -⟩ | ⟨rest, rfl, split⟩
  · by_cases all : cut = bytes
    · subst all
      have nothing : ([] : List UInt8) ≠ back := by
        rintro rfl
        exact differs (List.append_nil cut).symm
      rw [Step.bind_of_ok front.reads.alone]
      exact behind.short [] List.nil_prefix nothing
    · exact Step.bind_of_error (front.short cut ⟨lost, split.symm⟩ all)
  · rw [Step.bind_of_ok (front.reads rest)]
    exact behind.short rest ⟨missing, split.symm⟩ fun same => differs (by rw [same])

/-- Nothing is too short for a value that is only returned. -/
@[simp] theorem delimits_pure (value : α) : (pure value : Reader α).Delimits [] value :=
  ⟨.pure value, fun _ isPrefix differs => absurd (List.prefix_nil.mp isPrefix) differs⟩

/-- A value that is only returned is self-delimiting. -/
@[simp] theorem selfDelimiting_pure (value : α) : (pure value : Reader α).SelfDelimiting :=
  takes_pure (delimits_pure value)

/-- What is done to a value needs no more bytes. -/
theorem Delimits.map (front : reader.Delimits bytes value) (f : α → β) :
    (f <$> reader).Delimits bytes (f value) :=
  ⟨front.reads.map f, fun cut isPrefix differs => Step.map_of_error (front.short cut isPrefix differs)⟩

/-- **A chain is self-delimiting** if its links are. -/
theorem SelfDelimiting.bind (first : reader.SelfDelimiting) (rest : ∀ value, (next value).SelfDelimiting) :
    (reader >>= next).SelfDelimiting := by
  refine Takes.bind first fun value bytes last left done => ?_
  obtain ⟨back, whole, behind⟩ := rest value bytes last left done
  exact ⟨back, whole, fun front delimited => delimited.bind behind⟩

/-- A mapped reader is as self-delimiting. -/
theorem SelfDelimiting.map {f : α → β} (first : reader.SelfDelimiting) : (f <$> reader).SelfDelimiting :=
  first.bind fun value => selfDelimiting_pure (f value)

/-- A self-delimiting reader delimits the bytes that it reads as a value. -/
theorem SelfDelimiting.delimits (delimited : reader.SelfDelimiting) (reads : reader.Reads bytes value) :
    reader.Delimits bytes value := by
  obtain ⟨front, whole, delimits⟩ := delimited bytes value [] reads.alone
  rw [whole, List.append_nil]
  exact delimits

/-- A failure reads nothing. -/
@[simp] theorem selfDelimiting_fail (fault : Fault) : (fail fault : Reader α).SelfDelimiting :=
  fun _ _ _ failed => nomatch failed

/-- An attempt looks at no bytes. -/
@[simp] theorem selfDelimiting_attempt (x : Except Fault α) : (liftM x : Reader α).SelfDelimiting := by
  cases x with
  | error fault => exact selfDelimiting_fail fault
  | ok value => exact selfDelimiting_pure value

/-! ## (2) Bytes and lists -/

/-- **Fixed sizes are self-delimiting.** -/
theorem FixedSize.selfDelimiting {size : Nat} {related : List UInt8 → α → Prop}
    (fixed : reader.FixedSize size related) : reader.SelfDelimiting := by
  intro bytes value rest done
  have enough : size ≤ bytes.length := by
    by_contra few
    cases done.symm.trans (fixed.short bytes (Nat.lt_of_not_le few))
  obtain ⟨found, reads, -⟩ := fixed.enough (bytes.take size) (List.length_take_of_le enough)
  have taken := reads (bytes.drop size)
  rw [List.take_append_drop, done] at taken
  obtain ⟨rfl, rfl⟩ := Prod.mk.inj (Except.ok.inj taken)
  refine ⟨bytes.take size, (List.take_append_drop size bytes).symm, reads, fun cut isPrefix differs => ?_⟩
  have fewer : cut.length ≠ (bytes.take size).length := fun same => differs (isPrefix.eq_of_length same)
  have least := isPrefix.length_le
  rw [List.length_take_of_le enough] at fewer least
  exact fixed.short cut (Nat.lt_of_le_of_ne least fewer)

/-- **The next bytes** are delimited by their number. -/
@[simp] theorem selfDelimiting_take (count : Nat) : (take count).SelfDelimiting :=
  (fixedSize_take count).selfDelimiting

/-- The next byte is delimited. -/
@[simp] theorem selfDelimiting_byte : byte.SelfDelimiting :=
  fixedSize_byte.selfDelimiting

/-- A number is delimited by its width. -/
@[simp] theorem selfDelimiting_unsigned (width : Nat) : (unsigned width).SelfDelimiting :=
  (fixedSize_unsigned width).selfDelimiting

/-- A list is delimited member by member, behind those that are done. -/
private theorem selfDelimiting_timesOnto {item : Reader α} (each : item.SelfDelimiting) (count : Nat)
    (done : List α) : (timesOnto item count done).SelfDelimiting := by
  induction count generalizing done with
  | zero => exact selfDelimiting_pure _
  | succ count ih => exact each.bind fun value => ih (value :: done)

/-- **A list** is delimited by the number of its members, if these are delimited. -/
theorem selfDelimiting_times {item : Reader α} (each : item.SelfDelimiting) (count : Nat) :
    (times count item).SelfDelimiting :=
  selfDelimiting_timesOnto each count []

end Reader

/-- A length is delimited. -/
@[simp] theorem selfDelimiting_length : readLength.SelfDelimiting :=
  Reader.selfDelimiting_unsigned 4

/-- Bytes are delimited by the length in front of them. -/
@[simp] theorem selfDelimiting_bytes : readBytes.SelfDelimiting :=
  selfDelimiting_length.bind Reader.selfDelimiting_take

/-- The first four bytes of a file are delimited. -/
@[simp] theorem selfDelimiting_magic (expected : List UInt8) : (readMagic expected).SelfDelimiting := by
  refine (Reader.selfDelimiting_take 4).bind fun found => ?_
  split
  · exact Reader.selfDelimiting_fail _
  · exact Reader.selfDelimiting_pure _

/-! ## (3) Layouts -/

/-- A **delimited layout**: its values end where their bytes say. -/
class DelimitedBinary (α : Type) [Binary α] : Prop where
  selfDelimiting : (Binary.read : Reader α).SelfDelimiting

export DelimitedBinary (selfDelimiting)

instance : DelimitedBinary UInt8 := ⟨Reader.selfDelimiting_byte⟩

instance : DelimitedBinary UInt16 := ⟨(Reader.selfDelimiting_unsigned 2).map⟩

instance : DelimitedBinary UInt32 := ⟨(Reader.selfDelimiting_unsigned 4).map⟩

instance : DelimitedBinary UInt64 := ⟨(Reader.selfDelimiting_unsigned 8).map⟩

instance : DelimitedBinary Bool := ⟨Reader.selfDelimiting_byte.map⟩

/-- A string is delimited by its length, whether its bytes are text or not. -/
instance : DelimitedBinary String where
  selfDelimiting := by
    refine selfDelimiting_bytes.bind fun bytes => ?_
    split
    · exact Reader.selfDelimiting_pure _
    · exact Reader.selfDelimiting_fail _

instance [Binary α] [DelimitedBinary α] : DelimitedBinary (List α) :=
  ⟨selfDelimiting_length.bind (Reader.selfDelimiting_times selfDelimiting)⟩

end Hotpatch
