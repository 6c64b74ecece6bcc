import Hotpatch.Code.Body
import Hotpatch.Metadata.Attributes

/-! # Modules

A compiled module: the unit that is read, patched and written back.

* **`Module`**, **`TypeDef`**, **`MethodDef`** — what a module declares.
* **`Module.sites`** — every method with its place in the module, in the order of declaration.
* **`Module.addReference`** — refer to one more module. -/

namespace Hotpatch

/-! ## (1) Methods and types -/

/-- The **definition of a method**. -/
structure MethodDef where
  name : String
  attributes : MethodAttributes
  parameters : List Parameter
  returnType : TypeSig
  markers : List String
  /-- Methods that are abstract or defined elsewhere have no body. -/
  body? : Option Body
deriving Repr, DecidableEq, Inhabited

namespace MethodDef

/-- **Static**: not called on an object. -/
def isStatic (m : MethodDef) : Bool :=
  m.attributes.contains MethodAttributes.staticFlag

/-- **Constructor** of an object, or initializer of a type. They are known by their names. -/
def isConstructor (m : MethodDef) : Bool :=
  m.name == ".ctor" || m.name == ".cctor"

/-- **Marked** with a marker. -/
def hasMarker (m : MethodDef) (marker : String) : Bool :=
  m.markers.contains marker

/-- **Signature** of the method. -/
def signature (m : MethodDef) : MethodSig :=
  ⟨!m.isStatic, m.parameters.map (·.type), m.returnType⟩

/-- **Reference** to the method, given the full name of the type that declares it. -/
def reference (m : MethodDef) (declaringType : String) : MethodRef :=
  ⟨declaringType, m.name, m.signature⟩

end MethodDef

/-- The **definition of a type**. -/
structure TypeDef where
  namespaceName : String
  name : String
  attributes : TypeAttributes
  markers : List String
  methods : List MethodDef
deriving Repr, DecidableEq, Inhabited

namespace TypeDef

/-- **Full name**: the name behind the namespace, if there is one. -/
def fullName (t : TypeDef) : String :=
  if t.namespaceName.isEmpty then t.name else t.namespaceName ++ "." ++ t.name

/-- **Marked** with a marker. -/
def hasMarker (t : TypeDef) (marker : String) : Bool :=
  t.markers.contains marker

end TypeDef

/-! ## (2) Modules -/

/-- A **module**. -/
structure Module where
  name : String
  /-- The modules this one depends on. -/
  references : List String
  markers : List String
  types : List TypeDef
  /-- The source document, if debug data was read together with the module. -/
  document? : Option String
deriving Repr, DecidableEq, Inhabited

/-- A **site**: a method where it is declared. -/
structure Site where
  typeIndex : Nat
  methodIndex : Nat
  owner : TypeDef
  method : MethodDef
deriving Repr, DecidableEq, Inhabited

/-- **Site name**: the full name of the type and the name of the method. -/
def Site.name (s : Site) : String :=
  s.owner.fullName ++ "::" ++ s.method.name

namespace Module

/-- **Marked** with a marker. -/
def hasMarker (m : Module) (marker : String) : Bool :=
  m.markers.contains marker

/-- **Add a reference**, unless it is there already or is the module itself. -/
def addReference (m : Module) (reference : String) : Bool × Module :=
  if reference = m.name ∨ reference ∈ m.references then (false, m)
  else (true, { m with references := m.references ++ [reference] })

/-- **Sites** of all methods, in the order of declaration. -/
def sites (m : Module) : List Site :=
  m.types.zipIdx.flatMap fun (owner, typeIndex) =>
    owner.methods.zipIdx.map fun (method, methodIndex) =>
      ⟨typeIndex, methodIndex, owner, method⟩

/-- **Method** at a place. -/
def method? (m : Module) (typeIndex methodIndex : Nat) : Option MethodDef := do
  (← m.types[typeIndex]?).methods[methodIndex]?

/-- **Modify** the method at a place, if there is one. -/
def modifyMethod (m : Module) (typeIndex methodIndex : Nat) (f : MethodDef → MethodDef) : Module :=
  { m with
    types := m.types.modify typeIndex fun owner =>
      { owner with methods := owner.methods.modify methodIndex f } }

end Module

end Hotpatch
