import Hotpatch.Metadata.Attributes
import Hotpatch.Metadata.TokenTable
import Hotpatch.Proofs.Binary.ReadBack

/-! # Reading back metadata

Types, methods, tokens and their tables are read back as they were written.

* **`TypeSig.Fits`** — the names in a type are not too long.
* **`LawfulBinary`** of types, signatures, references, parameters, attributes, tokens and token
  tables. -/

namespace Hotpatch

open Binary (read write)
open Bounded (Fits)

/-! ## (1) Types -/

/-- The tag of a built-in type leads back to it, and is none of the tags of the other types. -/
theorem Builtin.ofTag?_tag (type : Builtin) :
    ofTag? type.tag = some type ∧ type.tag ≠ TypeSig.arrayTag ∧ type.tag ≠ TypeSig.valueTypeTag
      ∧ type.tag ≠ TypeSig.classTag := by
  cases type <;> decide

namespace TypeSig

/-- A type **fits** if the names in it do. -/
protected def Fits : TypeSig → Prop
  | builtin _ => True
  | valueType name => Bounded.Fits name
  | ofClass name => Bounded.Fits name
  | array element => element.Fits

instance : Bounded TypeSig := ⟨TypeSig.Fits⟩

/-- The bytes of a type are read as the type. -/
protected theorem reads_write (type : TypeSig) (fits : type.Fits) :
    Reader.Reads TypeSig.read type.write type := by
  induction type with
  | builtin type =>
    obtain ⟨found, notArray, notValueType, notClass⟩ := type.ofTag?_tag
    intro rest
    rw [TypeSig.write, List.singleton_append, TypeSig.read, if_neg notArray, if_neg notValueType,
      if_neg notClass, found]
  | valueType name =>
    intro rest
    rw [TypeSig.write, List.cons_append, TypeSig.read, if_neg (by decide), if_pos rfl]
    exact (reads_write name fits).map valueType rest
  | ofClass name =>
    intro rest
    rw [TypeSig.write, List.cons_append, TypeSig.read, if_neg (by decide), if_neg (by decide),
      if_pos rfl]
    exact (reads_write name fits).map ofClass rest
  | array element ih =>
    intro rest
    rw [TypeSig.write, List.cons_append, TypeSig.read, if_pos rfl, ih fits rest]

/-- A type that is read fits. -/
protected theorem fits_of_read {bytes rest : List UInt8} {type : TypeSig}
    (found : TypeSig.read bytes = .ok (type, rest)) : type.Fits := by
  -- The reader goes from byte to byte only over the tags of arrays.
  induction bytes generalizing type rest with
  | nil => cases found
  | cons tag bytes ih =>
    rw [TypeSig.read] at found
    split at found
    · split at found
      · next element left inner =>
        obtain ⟨rfl, -⟩ := Prod.mk.inj (Except.ok.inj found)
        show element.Fits
        exact ih inner
      · cases found
    · split at found
      · obtain ⟨name, _, named, same⟩ := Step.map_eq_ok_iff.mp found
        obtain ⟨rfl, -⟩ := Prod.mk.inj same
        exact fits_of_yields name ⟨_, _, named⟩
      · split at found
        · obtain ⟨name, _, named, same⟩ := Step.map_eq_ok_iff.mp found
          obtain ⟨rfl, -⟩ := Prod.mk.inj same
          exact fits_of_yields name ⟨_, _, named⟩
        · split at found
          · obtain ⟨rfl, -⟩ := Prod.mk.inj (Except.ok.inj found)
            trivial
          · cases found

instance : LawfulBinary TypeSig where
  reads_write type fits := type.reads_write fits
  fits_of_yields _ yields := by
    obtain ⟨bytes, rest, found⟩ := yields
    exact TypeSig.fits_of_read found

end TypeSig

/-! ## (2) Methods -/

/-- A signature fits if its types do, and there are not too many. -/
instance : Bounded MethodSig := ⟨fun s => Fits s.parameters ∧ Fits s.returnType⟩

instance : LawfulBinary MethodSig where
  reads_write s fits := by
    show Reader.Reads _ (write s.hasThis ++ write s.parameters ++ write s.returnType) s
    rw [List.append_assoc]
    exact (reads_write s.hasThis trivial).bind ((reads_write s.parameters fits.1).bind
      ((reads_write s.returnType fits.2).bind_pure _))
  fits_of_yields s yields := by
    obtain ⟨hasThis, -, yields⟩ := yields.of_bind
    obtain ⟨parameters, first, yields⟩ := yields.of_bind
    obtain ⟨returnType, second, returned⟩ := yields.of_bind
    obtain rfl := returned.of_pure
    exact ⟨fits_of_yields _ first, fits_of_yields _ second⟩

/-- A reference fits if its names and its signature do. -/
instance : Bounded MethodRef := ⟨fun m => Fits m.declaringType ∧ Fits m.name ∧ Fits m.signature⟩

instance : LawfulBinary MethodRef where
  reads_write m fits := by
    show Reader.Reads _ (write m.declaringType ++ write m.name ++ write m.signature) m
    rw [List.append_assoc]
    exact (reads_write m.declaringType fits.1).bind ((reads_write m.name fits.2.1).bind
      ((reads_write m.signature fits.2.2).bind_pure _))
  fits_of_yields m yields := by
    obtain ⟨declaringType, first, yields⟩ := yields.of_bind
    obtain ⟨name, second, yields⟩ := yields.of_bind
    obtain ⟨signature, third, returned⟩ := yields.of_bind
    obtain rfl := returned.of_pure
    exact ⟨fits_of_yields _ first, fits_of_yields _ second, fits_of_yields _ third⟩

/-- A parameter fits if its name and its type do. -/
instance : Bounded Parameter := ⟨fun p => Fits p.name ∧ Fits p.type⟩

instance : LawfulBinary Parameter where
  reads_write p fits :=
    (reads_write p.name fits.1).bind ((reads_write p.type fits.2).bind_pure _)
  fits_of_yields p yields := by
    obtain ⟨name, first, yields⟩ := yields.of_bind
    obtain ⟨type, second, returned⟩ := yields.of_bind
    obtain rfl := returned.of_pure
    exact ⟨fits_of_yields _ first, fits_of_yields _ second⟩

/-! ## (3) Words and tables -/

/-- Attributes have no lengths in them. -/
instance : Bounded TypeAttributes := ⟨fun _ => True⟩

instance : Bounded MethodAttributes := ⟨fun _ => True⟩

/-- A token has no lengths in it. -/
instance : Bounded Token := ⟨fun _ => True⟩

instance : LawfulBinary TypeAttributes where
  reads_write a _ := (reads_write a.bits trivial).bind_pure _
  fits_of_yields _ _ := trivial

instance : LawfulBinary MethodAttributes where
  reads_write a _ := (reads_write a.bits trivial).bind_pure _
  fits_of_yields _ _ := trivial

instance : LawfulBinary Token where
  reads_write t _ := (reads_write t.word trivial).bind_pure _
  fits_of_yields _ _ := trivial

/-- A token table fits if its three lists do. -/
instance : Bounded TokenTable := ⟨fun t => Fits t.strings ∧ Fits t.types ∧ Fits t.methods⟩

instance : LawfulBinary TokenTable where
  reads_write t fits := by
    show Reader.Reads _ (write t.strings ++ write t.types ++ write t.methods) t
    rw [List.append_assoc]
    exact (reads_write t.strings fits.1).bind ((reads_write t.types fits.2.1).bind
      ((reads_write t.methods fits.2.2).bind_pure _))
  fits_of_yields t yields := by
    obtain ⟨strings, first, yields⟩ := yields.of_bind
    obtain ⟨types, second, yields⟩ := yields.of_bind
    obtain ⟨methods, third, returned⟩ := yields.of_bind
    obtain rfl := returned.of_pure
    exact ⟨fits_of_yields _ first, fits_of_yields _ second, fits_of_yields _ third⟩

end Hotpatch
