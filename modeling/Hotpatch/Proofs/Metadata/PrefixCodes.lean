import Hotpatch.Proofs.Metadata.ReadBack
import Hotpatch.Proofs.Metadata.SelfDelimiting

/-! # Prefix codes

What is written for a value that fits is read back as the value from the front of any bytes, and any fewer bytes
are too short for it. So no value is written as the front of another one.

* **`PrefixCode`** — layouts with that property.
* **`prefixCode`** — lawful layouts that are delimited have it.
* **`prefixCode_metadata`** — types, signatures, references, parameters and token tables do. -/

namespace Hotpatch

open Binary (read write)
open Bounded (Fits)

/-- A layout is a **prefix code** if the bytes of each value that fits are delimited as this value, and those of
no other one are in front of them. -/
structure PrefixCode (α : Type) [Binary α] [Bounded α] : Prop where
  delimits : ∀ value : α, Fits value → (read : Reader α).Delimits (write value) value
  unique : ∀ value other : α, Fits value → Fits other → write value <+: write other → value = other

/-- **A lawful layout that is delimited** is a prefix code. -/
theorem prefixCode {α : Type} [Binary α] [Bounded α] [LawfulBinary α] [DelimitedBinary α] : PrefixCode α where
  delimits value fits := selfDelimiting.delimits (reads_write value fits)
  unique value other fits fits' front := by
    obtain ⟨rest, whole⟩ := front
    -- The bytes of the other value are read from the front as both of them.
    have first := reads_write value fits rest
    have second := (reads_write other fits').alone
    rw [← whole, first] at second
    exact (Prod.mk.inj (Except.ok.inj second)).1

/-- **Metadata are written in prefix codes**: types of any depth, signatures, references, parameters and token
tables. -/
theorem prefixCode_metadata : PrefixCode TypeSig ∧ PrefixCode MethodSig ∧ PrefixCode MethodRef
    ∧ PrefixCode Parameter ∧ PrefixCode TokenTable :=
  ⟨prefixCode, prefixCode, prefixCode, prefixCode, prefixCode⟩

/-- A method with an array of arrays of a class for its parameter. Without its last byte it is cut short, and the
same method without the outer array is not written in front of it. -/
theorem prefixCode_metadata_nested :
    let method (type : TypeSig) : MethodRef := ⟨"A", "b", ⟨false, [type], .void⟩⟩
    let nested := method (.array (.array (.ofClass "é")))
    Fits nested ∧ (∀ rest, read (write nested ++ rest) = .ok (nested, rest))
      ∧ (read (write nested).dropLast : Except Fault (MethodRef × List UInt8)) = .error .unexpectedEnd
      ∧ ¬ write (method (.array (.ofClass "é"))) <+: write nested := by
  intro method nested
  obtain ⟨-, -, ⟨delimits, unique⟩, -, -⟩ := prefixCode_metadata
  -- Names are measured in the bytes of their UTF-8 form, of which the class has two.
  have fits : Fits nested := by
    simp [Fits, TypeSig.Fits, nested, method]
    decide
  have fits' : Fits (method (.array (.ofClass "é"))) := by
    simp [Fits, TypeSig.Fits, method]
    decide
  refine ⟨fits, (delimits nested fits).reads, ?_, fun front => ?_⟩
  · exact (delimits nested fits).short _ (List.dropLast_prefix _) (by decide)
  · exact absurd (unique _ _ fits' fits front) (by decide)

end Hotpatch
