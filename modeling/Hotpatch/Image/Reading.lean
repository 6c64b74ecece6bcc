import Hotpatch.Code.Decoding
import Hotpatch.Image.Writing

/-! # Reading images

A module from its image. Code is decoded as it is read, so that the first fault in the order of the
bytes is the one reported.

* **`ModuleImage`** — the module, and for every body the instructions at the offsets they had in
  the image, which is where debug data points to.
* **`ModuleImage.read`** — the image at the front of some bytes. -/

namespace Hotpatch

/-- The instructions of a body **at the offsets** they have in the image. -/
abbrev CutCode := OffsetTable (Instruction Int)

/-- A module **as read** from an image. -/
structure ModuleImage where
  module : Module
  /-- The cut code of every method that has a body, type by type. -/
  cuts : List (List (Option CutCode))
deriving Repr, Inhabited

/-- **Read a body**. -/
def readBody (tokens : TokenTable) : Reader (Body × CutCode) := do
  let maxStack ← Binary.read
  let initLocals ← Binary.read
  let locals ← Binary.read
  let decoded ← decodeCode tokens (← readBytes)
  return ({ decoded.body with maxStack, initLocals, locals }, decoded.cut)

/-- **Read a method**. -/
def readMethod (tokens : TokenTable) : Reader (MethodDef × Option CutCode) := do
  let name ← Binary.read
  let attributes ← Binary.read
  let parameters ← Binary.read
  let returnType ← Binary.read
  let markers ← Binary.read
  if ← (Binary.read : Reader Bool) then
    let (body, cut) ← readBody tokens
    return (⟨name, attributes, parameters, returnType, markers, some body⟩, some cut)
  else return (⟨name, attributes, parameters, returnType, markers, none⟩, none)

/-- **Read a type**. -/
def readType (tokens : TokenTable) : Reader (TypeDef × List (Option CutCode)) := do
  let namespaceName ← Binary.read
  let name ← Binary.read
  let attributes ← Binary.read
  let markers ← Binary.read
  let methods ← Reader.times (← readLength) (readMethod tokens)
  return (⟨namespaceName, name, attributes, markers, methods.map (·.1)⟩, methods.map (·.2))

/-- **Read an image**. -/
def ModuleImage.read : Reader ModuleImage := do
  readMagic imageMagic
  let version ← Binary.read
  if version ≠ imageVersion then Reader.fail (.unsupportedVersion version)
  let name ← Binary.read
  let references ← Binary.read
  let markers ← Binary.read
  let tokens ← Binary.read
  let types ← Reader.times (← readLength) (readType tokens)
  return ⟨⟨name, references, markers, types.map (·.1), none⟩, types.map (·.2)⟩

end Hotpatch
