import Hotpatch.Metadata.TypeSig

/-! # Method references

Methods as they are seen from a call.

* **`MethodSig`** — what a method takes and returns.
* **`MethodRef`** — a method by its declaring type, its name and its signature.
* **`Parameter`** — a named parameter of a method definition. -/

namespace Hotpatch

/-- A **method signature**. -/
structure MethodSig where
  /-- The method takes the object it is called on in its first argument slot. -/
  hasThis : Bool
  parameters : List TypeSig
  returnType : TypeSig
deriving Repr, DecidableEq, Inhabited

/-- **Argument slots** a call takes up: the parameters, and one for the object. -/
def MethodSig.argumentSlots (s : MethodSig) : Nat :=
  s.parameters.length + s.hasThis.toNat

instance : Binary MethodSig where
  write s := Binary.write s.hasThis ++ Binary.write s.parameters ++ Binary.write s.returnType
  read := return ⟨← Binary.read, ← Binary.read, ← Binary.read⟩

/-- A **method reference**. -/
structure MethodRef where
  /-- The full name of the type that declares the method. -/
  declaringType : String
  name : String
  signature : MethodSig
deriving Repr, DecidableEq, Inhabited

/-- **Rendered** reference: return type, full name, and the parameters between parentheses. -/
def MethodRef.render (m : MethodRef) : String :=
  (if m.signature.hasThis then "instance " else "") ++ m.signature.returnType.render ++ " "
    ++ m.declaringType ++ "::" ++ m.name ++ "("
    ++ String.intercalate ", " (m.signature.parameters.map TypeSig.render) ++ ")"

instance : Binary MethodRef where
  write m := Binary.write m.declaringType ++ Binary.write m.name ++ Binary.write m.signature
  read := return ⟨← Binary.read, ← Binary.read, ← Binary.read⟩

/-- A **parameter** of a method definition. -/
structure Parameter where
  name : String
  type : TypeSig
deriving Repr, DecidableEq, Inhabited

instance : Binary Parameter where
  write p := Binary.write p.name ++ Binary.write p.type
  read := return ⟨← Binary.read, ← Binary.read⟩

end Hotpatch
