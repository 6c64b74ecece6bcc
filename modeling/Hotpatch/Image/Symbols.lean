import Hotpatch.Image.Reading

/-! # Symbols

The debug data of a module, in a file of its own: a document, and for the methods that have any the
sequence points, each with the offset of its instruction.

* **`symbolsPath`** — where the symbols of a module are kept.
* **`Module.writeSymbols`** — the symbols file, with the current offsets.
* **`ModuleImage.readSymbols`** — attach the points of a symbols file to the instructions that
  started at their offsets in the image.

Points attached before a fault stay attached. -/

namespace Hotpatch

/-- The four bytes a symbols file starts with. -/
def symbolsMagic : List UInt8 := [0x49, 0x4c, 0x44, 0x42]

/-- **Symbols path**: next to the module, with an extension of its own. -/
def symbolsPath (path : Path) : Path :=
  path.withExtension "ilpdb"

/-! ## (1) Writing -/

/-- **Bytes of a sequence point**, whose instruction needs an offset. -/
def SequencePoint.write (offsets : Array (Option Nat)) (p : SequencePoint) :
    Except Fault (List UInt8) :=
  match offsets[p.instruction.index]?.join with
  | some offset => .ok (littleEndian 4 offset ++ Binary.write p.line ++ Binary.write p.column)
  | none => .error (.unknownInstruction p.instruction)

/-- **Bytes of an entry**: the place of a method, then its points. -/
def Body.writePoints (b : Body) (typeIndex methodIndex : Nat) : Except Fault (List UInt8) := do
  if !b.offsetsAreCurrent then throw .staleOffsets
  let offsets := b.offsets
  let points ← b.points.mapM (SequencePoint.write offsets)
  return littleEndian 4 typeIndex ++ littleEndian 4 methodIndex
    ++ writeLength b.points.length ++ points.flatten

/-- The bodies that have sequence points, with their places. -/
def Module.pointed (m : Module) : List (Nat × Nat × Body) :=
  m.sites.filterMap fun site =>
    match site.method.body? with
    | some body =>
      if body.points.isEmpty then none else some (site.typeIndex, site.methodIndex, body)
    | none => none

/-- **Symbols** of a module. One that has none still gets a valid file. -/
def Module.writeSymbols (m : Module) : Except Fault (List UInt8) := do
  let entries ← m.pointed.mapM fun (typeIndex, methodIndex, body) =>
    body.writePoints typeIndex methodIndex
  return symbolsMagic ++ Binary.write (m.document?.getD "") ++ writeLength entries.length
    ++ entries.flatten

/-! ## (2) Reading -/

/-- A sequence point **as written**. -/
structure WrittenPoint where
  offset : UInt32
  line : UInt32
  column : UInt16
deriving Repr, DecidableEq, Inhabited

instance : Binary WrittenPoint where
  write p := Binary.write p.offset ++ Binary.write p.line ++ Binary.write p.column
  read := return ⟨← Binary.read, ← Binary.read, ← Binary.read⟩

namespace ModuleImage

/-- The instruction that **started at** an offset in the image. -/
def handleAt? (image : ModuleImage) (typeIndex methodIndex offset : Nat) : Option Handle := do
  let cut ← (← (← image.cuts[typeIndex]?)[methodIndex]?)
  let body ← (← image.module.method? typeIndex methodIndex).body?
  (cut.lookup offset).index?.bind body.handleAt?

/-- **Attach** a point to the instruction it belongs to. -/
def attach (image : ModuleImage) (typeIndex methodIndex : Nat) (point : WrittenPoint) :
    Except Fault ModuleImage :=
  match image.handleAt? typeIndex methodIndex point.offset.toNat with
  | none => .error (.badSequencePoint typeIndex methodIndex point.offset.toNat)
  | some handle =>
    let add (body : Body) : Body :=
      { body with points := body.points ++ [⟨handle, point.line, point.column⟩] }
    .ok { image with
      module := image.module.modifyMethod typeIndex methodIndex fun method =>
        { method with body? := method.body?.map add } }

/-- What is left of a symbols file, and the image with the points attached so far. -/
abbrev SymbolsRead := ModuleImage × Except Fault (List UInt8)

/-- **Read points** of one method. -/
def readPoints (typeIndex methodIndex : Nat) : Nat → ModuleImage → List UInt8 → SymbolsRead
  | 0, image, bytes => (image, .ok bytes)
  | count + 1, image, bytes =>
    match (Binary.read : Reader WrittenPoint) bytes with
    | .error fault => (image, .error fault)
    | .ok (point, rest) =>
      match image.attach typeIndex methodIndex point with
      | .error fault => (image, .error fault)
      | .ok attached => readPoints typeIndex methodIndex count attached rest

/-- The place of a method and the number of its points. -/
def readEntryHead : Reader (UInt32 × UInt32 × Nat) :=
  return (← Binary.read, ← Binary.read, ← readLength)

/-- **Read entries**, one for each method. -/
def readEntries : Nat → ModuleImage → List UInt8 → SymbolsRead
  | 0, image, bytes => (image, .ok bytes)
  | count + 1, image, bytes =>
    match readEntryHead bytes with
    | .error fault => (image, .error fault)
    | .ok ((typeIndex, methodIndex, points), rest) =>
      match readPoints typeIndex.toNat methodIndex.toNat points image rest with
      | (read, .error fault) => (read, .error fault)
      | (read, .ok left) => readEntries count read left

/-- The document and the number of entries. -/
def readSymbolsHead : Reader (String × Nat) := do
  readMagic symbolsMagic
  return (← Binary.read, ← readLength)

/-- **Read symbols** into the image. The document is taken over once all entries are read. -/
def readSymbols (image : ModuleImage) (bytes : List UInt8) : SymbolsRead :=
  match readSymbolsHead bytes with
  | .error fault => (image, .error fault)
  | .ok ((document, entries), rest) =>
    match readEntries entries image rest with
    | (read, .error fault) => (read, .error fault)
    | (read, .ok left) => ({ read with module.document? := some document }, .ok left)

end ModuleImage

end Hotpatch
