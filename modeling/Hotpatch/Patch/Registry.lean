import Hotpatch.Metadata.MethodRef
import Hotpatch.Patch.Failure

/-! # Patch registries

The two methods that a preamble calls: one tells whether a method has a patch, the other runs it.

* **`PatchRegistry.standard`** — the registry on a type of a module.
* **`PatchRegistry.validate`** — whether both methods have the expected signatures. -/

namespace Hotpatch

/-- A **patch registry**. -/
structure PatchRegistry where
  /-- The module that defines the registry. -/
  module : String
  /-- Takes the names of a type and a method, and tells whether there is a patch. -/
  hasPatch : MethodRef
  /-- Takes the names and the arguments, and gives the result of the patch. -/
  callPatch : MethodRef
deriving Repr, DecidableEq, Inhabited

namespace PatchRegistry

/-- The signature of the method that looks for a patch. -/
def hasPatchSignature : MethodSig :=
  ⟨false, [.string, .string], .bool⟩

/-- The signature of the method that runs a patch. -/
def callPatchSignature : MethodSig :=
  ⟨false, [.string, .string, .array .object], .object⟩

/-- The **standard** registry on a type of a module. -/
def standard (module declaringType : String) : PatchRegistry :=
  ⟨module, ⟨declaringType, "HasPatch", hasPatchSignature⟩,
    ⟨declaringType, "CallPatch", callPatchSignature⟩⟩

/-- The module of the registry unless told otherwise. -/
def defaultModule : String := "Hotfix"

/-- The type of the registry unless told otherwise. -/
def defaultType : String := "Hotfix.PatchRegistry"

/-- **Validate**: both methods have to have the expected signatures. -/
def validate (r : PatchRegistry) : Except Failure Unit :=
  if r.hasPatch.signature ≠ hasPatchSignature then
    .error (.invalidRegistry ("expected `static bool HasPatch(string, string)`, found `"
      ++ r.hasPatch.render ++ "`"))
  else if r.callPatch.signature ≠ callPatchSignature then
    .error (.invalidRegistry
      ("expected `static object CallPatch(string, string, object[])`, found `"
        ++ r.callPatch.render ++ "`"))
  else .ok ()

/-- **Returns a value**: running a patch leaves something on the stack. -/
def returnsValue (r : PatchRegistry) : Bool :=
  !r.callPatch.signature.returnType.isVoid

end PatchRegistry

end Hotpatch
