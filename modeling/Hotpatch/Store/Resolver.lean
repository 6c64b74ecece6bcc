import Hotpatch.Fault
import Hotpatch.Files.FileSystem
import Hotpatch.Journal

/-! # Resolving references

Finding the modules that a module refers to. A reference is looked for next to the module that has
it, and then in the search directories, in the order in which they were added.

* **`Resolver.addSearchDirectory`** — one more directory to search.
* **`Resolver.resolve`** — the path of a referenced module.
* **`Resolver.resolveAll`** — the paths of several, up to the first that is missing. -/

namespace Hotpatch

/-- A **resolver** of references. -/
structure Resolver where
  searchDirectories : List Path
deriving Repr, DecidableEq, Inhabited

namespace Resolver

variable {m : Type → Type} [Monad m] [Journal m]

/-- **Add a search directory** behind the others. -/
def addSearchDirectory (r : Resolver) (directory : Path) : m Resolver := do
  Journal.record ⟨.debug, "Adding search directory " ++ directory.text⟩
  return ⟨r.searchDirectories ++ [directory]⟩

/-- The resolver with the given **search directories**. -/
def ofDirectories (directories : List Path) : m Resolver :=
  directories.foldlM addSearchDirectory ⟨[]⟩

variable [FileSystem m]

/-- **Search** directories for a file, and take the first they have. -/
def search (reference fileName : String) : List Path → m (Option Path)
  | [] => return none
  | directory :: rest => do
    let candidate := directory.join fileName
    Journal.record ⟨.trace, "Looking for '" ++ reference ++ "' at " ++ candidate.text⟩
    if ← FileSystem.isFile candidate then return some candidate
    search reference fileName rest

/-- **Resolve** a reference of a module in a directory. -/
def resolve (r : Resolver) (referrer? : Option Path) (reference : String) :
    ExceptT Fault m Path := do
  let directories := referrer?.toList ++ r.searchDirectories
  match ← (search reference (reference ++ ".ilm") directories : m (Option Path)) with
  | some path => return path
  | none => throw (.unresolvedReference reference directories)

/-- **Resolve all** references of a module in a directory. -/
def resolveAll (r : Resolver) (referrer? : Option Path) (references : List String) :
    ExceptT Fault m (List Path) :=
  references.mapM (r.resolve referrer?)

end Resolver

end Hotpatch
