import Hotpatch.Metadata.Attributes
import Hotpatch.Metadata.TokenTable
import Hotpatch.Proofs.Binary.SelfDelimiting

/-! # Metadata delimits itself

Types, methods, attributes and token tables end where their bytes say.

* **`TypeSig.readBehind`** — what is read behind the tag of a type; `TypeSig.read_cons` says that a type is
  read like this.
* **`DelimitedBinary`** of types, signatures, references, parameters, attributes and token tables. -/

namespace Hotpatch

/-! ## (1) Types -/

namespace TypeSig

/-- What is read **behind a tag**. -/
def readBehind (tag : UInt8) : Reader TypeSig :=
  if tag = arrayTag then array <$> TypeSig.read
  else if tag = valueTypeTag then valueType <$> (Binary.read : Reader String)
  else if tag = classTag then ofClass <$> (Binary.read : Reader String)
  else
    match Builtin.ofTag? tag with
    | some type => pure (builtin type)
    | none => Reader.fail (.unknownTypeTag tag)

/-- **A type is its tag** and what is read behind it. -/
theorem read_cons (tag : UInt8) (bytes : List UInt8) :
    TypeSig.read (tag :: bytes) = readBehind tag bytes := by
  rw [TypeSig.read, readBehind]
  split
  · cases inner : TypeSig.read bytes with
    | error fault => exact (Step.map_of_error inner).symm
    | ok found => exact (Step.map_of_ok inner).symm
  · split
    · rfl
    · split
      · rfl
      · cases Builtin.ofTag? tag <;> rfl

/-- What is delimited behind a tag is delimited with it. -/
theorem delimits_cons {tag : UInt8} {front : List UInt8} {type : TypeSig}
    (behind : (readBehind tag).Delimits front type) : Reader.Delimits TypeSig.read (tag :: front) type := by
  refine ⟨fun rest => (read_cons tag _).trans (behind.reads rest), fun cut isPrefix differs => ?_⟩
  cases cut with
  | nil => rfl
  | cons other cut =>
    obtain ⟨rfl, shorter⟩ := List.cons_prefix_cons.mp isPrefix
    exact (read_cons other cut).trans (behind.short cut shorter fun same => differs (by rw [same]))

/-- Behind a tag that is not that of an array stands a name, or nothing. -/
theorem selfDelimiting_readBehind {tag : UInt8} (single : tag ≠ arrayTag) :
    (readBehind tag).SelfDelimiting := by
  rw [readBehind, if_neg single]
  split
  · exact selfDelimiting.map
  · split
    · exact selfDelimiting.map
    · split
      · exact Reader.selfDelimiting_pure _
      · exact Reader.selfDelimiting_fail _

/-- **A type is self-delimiting**: each tag of an array leads on to one more type. -/
protected theorem selfDelimiting : Reader.SelfDelimiting TypeSig.read := by
  intro bytes
  induction bytes with
  | nil => exact fun _ _ failed => nomatch failed
  | cons tag bytes ih =>
    intro type rest done
    rw [read_cons] at done
    by_cases nested : tag = arrayTag
    · rw [readBehind, if_pos nested] at done
      obtain ⟨element, between, found, same⟩ := Step.map_eq_ok_iff.mp done
      obtain ⟨rfl, rfl⟩ := Prod.mk.inj same
      obtain ⟨front, rfl, delimits⟩ := ih element between found
      refine ⟨tag :: front, rfl, delimits_cons ?_⟩
      rw [readBehind, if_pos nested]
      exact delimits.map array
    · obtain ⟨front, rfl, delimits⟩ := selfDelimiting_readBehind nested bytes type rest done
      exact ⟨tag :: front, rfl, delimits_cons delimits⟩

instance : DelimitedBinary TypeSig := ⟨TypeSig.selfDelimiting⟩

end TypeSig

/-! ## (2) Methods, attributes and tables -/

open Reader (selfDelimiting_pure)

instance : DelimitedBinary MethodSig where
  selfDelimiting :=
    selfDelimiting.bind fun _ => selfDelimiting.bind fun _ => selfDelimiting.bind fun _ =>
      selfDelimiting_pure _

instance : DelimitedBinary MethodRef where
  selfDelimiting :=
    selfDelimiting.bind fun _ => selfDelimiting.bind fun _ => selfDelimiting.bind fun _ =>
      selfDelimiting_pure _

instance : DelimitedBinary Parameter where
  selfDelimiting := selfDelimiting.bind fun _ => selfDelimiting.bind fun _ => selfDelimiting_pure _

instance : DelimitedBinary TypeAttributes where
  selfDelimiting := selfDelimiting.bind fun _ => selfDelimiting_pure _

instance : DelimitedBinary MethodAttributes where
  selfDelimiting := selfDelimiting.bind fun _ => selfDelimiting_pure _

instance : DelimitedBinary TokenTable where
  selfDelimiting :=
    selfDelimiting.bind fun _ => selfDelimiting.bind fun _ => selfDelimiting.bind fun _ =>
      selfDelimiting_pure _

end Hotpatch
