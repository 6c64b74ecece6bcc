import Hotpatch.Code.Encoding
import Hotpatch.Module

/-! # Writing images

The image of a module. After the magic and the version come the name, the references and the
markers, then the token table, and then the types with their methods and code. The token table is
filled while the code is encoded, though it is written in front of it.

* **`MethodDef.write`**, **`TypeDef.write`** — the bytes of a definition, tokens asked for on the way.
* **`Module.writeTypes`** — the bytes of all types; it leaves the table of the tokens they use.
* **`Module.write`** — the whole image, or the fault of the first body that cannot be encoded. -/

namespace Hotpatch

/-- The four bytes an image starts with. -/
def imageMagic : List UInt8 := [0x49, 0x4c, 0x4d, 0x44]

/-- The version of the layout. -/
def imageVersion : UInt16 := 1

/-- **Bytes of a body**: its settings, then the code with its length. -/
def Body.write (b : Body) : Assembler (List UInt8) := do
  let code ← b.encode
  return Binary.write b.maxStack ++ Binary.write b.initLocals ++ Binary.write b.locals
    ++ writeBytes code

/-- **Bytes of a body that may be missing**. One byte tells whether there is one. -/
def writeBody? : Option Body → Assembler (List UInt8)
  | some body => return Binary.write true ++ (← body.write)
  | none => return Binary.write false

/-- **Bytes of a method**. -/
def MethodDef.write (m : MethodDef) : Assembler (List UInt8) := do
  let body ← writeBody? m.body?
  return Binary.write m.name ++ Binary.write m.attributes ++ Binary.write m.parameters
    ++ Binary.write m.returnType ++ Binary.write m.markers ++ body

/-- **Bytes of a type**. -/
def TypeDef.write (t : TypeDef) : Assembler (List UInt8) := do
  let methods ← t.methods.mapM MethodDef.write
  return Binary.write t.namespaceName ++ Binary.write t.name ++ Binary.write t.attributes
    ++ Binary.write t.markers ++ writeLength t.methods.length ++ methods.flatten

/-- **Bytes of all types** of a module, with their number. -/
def Module.writeTypes (m : Module) : Assembler (List UInt8) := do
  let types ← m.types.mapM TypeDef.write
  return writeLength m.types.length ++ types.flatten

/-- **Image** of a module. -/
def Module.write (m : Module) : Except Fault (List UInt8) := do
  let (types, tokens) ← m.writeTypes.run .empty
  return imageMagic ++ Binary.write imageVersion ++ Binary.write m.name
    ++ Binary.write m.references ++ Binary.write m.markers ++ Binary.write tokens ++ types

end Hotpatch
