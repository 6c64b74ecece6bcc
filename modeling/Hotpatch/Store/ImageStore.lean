import Hotpatch.Image.Symbols
import Hotpatch.Store.ModuleStore

/-! # Image stores

Modules kept as images on a file system, each with its symbols next to it.

* **`loadImage`** — read a module and, if asked for, its symbols.
* **`saveImage`** — write a module and its symbols; either both files are in place afterwards or
  neither.
* **`stagingPath`**, **`stageAll`**, **`moveAll`**, **`discard`** — the files are written under other
  names first, and renamed in the reverse order. What a failed step leaves behind is removed.
* **`imageStore`** — the store made of these. -/

namespace Hotpatch

variable {m : Type → Type} [Monad m] [FileSystem m] [Journal m]

/-! ## (1) Reading -/

/-- The outcome of a file operation, with a file error as a fault. -/
def liftFile (operation : m (Except FileError α)) : ExceptT Fault m α := do
  match ← (operation : m (Except FileError α)) with
  | .ok value => return value
  | .error error => throw (.ofFileError error)

/-- **Load symbols** into an image, if there is a file with them. -/
def loadSymbols (image : ModuleImage) (path : Path) : ExceptT Fault m ModuleImage := do
  match ← (FileSystem.read path : m (Except FileError (List UInt8))) with
  | .ok bytes =>
    Journal.record (m := m) ⟨.debug, "Reading symbols " ++ path.text⟩
    match image.readSymbols bytes with
    | (read, .ok _) => return read
    | (_, .error fault) => throw fault
  | .error .notFound => return image
  | .error error => throw (.io error)

/-- **Load** a module. -/
def loadImage (readSymbols : Bool) (resolver : Resolver) (path : Path) :
    ExceptT Fault m Module := do
  Journal.record (m := m) ⟨.info, "Reading module " ++ path.text⟩
  let bytes ← liftFile (m := m) (FileSystem.read path)
  let (image, _) ← (ModuleImage.read bytes : Except Fault _)
  let image ← if readSymbols then loadSymbols image (symbolsPath path) else pure image
  let references ← resolver.resolveAll path.parent? image.module.references
  Journal.recordAll (m := m)
    (references.map fun p => ⟨.debug, "Resolved reference " ++ p.text⟩)
  return image.module

/-! ## (2) Writing -/

/-- **Staging path**: where a file is written before it gets its name. -/
def stagingPath (path : Path) : Path :=
  path.withFileName ("." ++ path.fileName?.getD "" ++ ".ilpatch.tmp")

/-- **Discard** files. Those that cannot be removed stay. -/
def discard (paths : List Path) : m Unit :=
  paths.forM fun path => do
    let _ ← FileSystem.remove (m := m) path

/-- **Stage** files behind those staged already. If one cannot be written, all are discarded. -/
def stageAll (staged : List Path) : List (Path × List UInt8) → m (Except FileError (List Path))
  | [] => return .ok staged
  | (path, bytes) :: rest => do
    let staged := staged ++ [stagingPath path]
    match ← FileSystem.write (stagingPath path) bytes with
    | .ok () => stageAll staged rest
    | .error error =>
      discard staged
      return .error error

/-- **Move** staged files to their places. If one cannot be moved, all that are staged or placed
are discarded. One call replaces the file at a place, as `FileSystem.rename` promises; on a system where a
rename does not, a file that is there would be removed first and the rename made again. -/
def moveAll (staged placed : List Path) : List (Path × Path) → m (Except FileError Unit)
  | [] => return .ok ()
  | (staging, path) :: rest => do
    Journal.record ⟨.debug, "Moving " ++ staging.text ++ " to " ++ path.text⟩
    match ← FileSystem.rename staging path with
    | .ok () => moveAll staged (placed ++ [path]) rest
    | .error error =>
      discard staged
      discard placed
      return .error error

/-- **Write all** files, or leave none of them behind. -/
def writeAll (files : List (Path × List UInt8)) : m (Except FileError Unit) := do
  match ← stageAll [] files with
  | .error error => return .error error
  | .ok staged => moveAll staged [] (staged.zip (files.map (·.1))).reverse

/-- The **files** of a module: its image, and its symbols if it has any that are to be written. -/
def imageFiles (writeSymbols : Bool) (module : Module) (path : Path) :
    Except Fault (List (Path × List UInt8)) := do
  let image ← module.write
  if writeSymbols && module.document?.isSome then
    return [(path, image), (symbolsPath path, ← module.writeSymbols)]
  else return [(path, image)]

/-- **Save** a module. No file is touched before all bytes are there. -/
def saveImage (writeSymbols : Bool) (module : Module) (path : Path) : ExceptT Fault m Unit := do
  let files ← (imageFiles writeSymbols module path : Except Fault _)
  Journal.record (m := m) ⟨.info, "Writing module " ++ path.text⟩
  liftFile (m := m) (writeAll files)

/-! ## (3) The store -/

/-- **Same file**: both paths lead to the same place, or, if one of them leads nowhere, are equal. -/
def sameFile (a b : Path) : m Bool := do
  match ← FileSystem.canonical? a, ← FileSystem.canonical? b with
  | some a, some b => return a.sameAs b
  | _, _ => return a.sameAs b

/-- The **image store**. -/
def imageStore (readSymbols writeSymbols : Bool) : ModuleStore m where
  load := loadImage readSymbols
  save := saveImage writeSymbols
  sameFile := sameFile

end Hotpatch
