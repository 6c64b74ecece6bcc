import Hotpatch.Files.FileSystem
import Hotpatch.Journal

/-! # File trees

A file system as a value: files, directories and links below one root, with a working directory
that relative paths start from. Programs run on it as they do on the files of a machine. Seen from paths
that lead to places of their own, it is a disk (`FileTree.Shows`), and what holds of saving on a disk holds
on it (`World.save_eq`).

* **`FileTree.walk`** — where a path leads, name by name.
* **`FileTree.read`**, **`write`**, **`rename`**, **`remove`** — the operations, with the causes of
  failure.
* **`FileTree.makeDirectories`**, **`FileTree.makeLink`** — what a tree is built with besides files.
* **`World`** — a file tree and the records made so far; its state monad is a file system with a
  journal. -/

namespace Hotpatch

/-! ## (1) Trees -/

/-- A **location**: the names that lead to it from the root. -/
abbrev Location := List String

/-- A **node** of a tree. -/
inductive Node where
  | file (contents : List UInt8)
  | directory
  | link (target : Path)
deriving Repr, DecidableEq, Inhabited

/-- A **file tree**. The root is a directory without being listed. -/
structure FileTree where
  entries : List (Location × Node)
  /-- The working directory. -/
  working : Location
deriving Repr, DecidableEq, Inhabited

namespace FileTree

/-- The **node** at a location. -/
def node? (t : FileTree) (location : Location) : Option Node :=
  if location = [] then some .directory
  else (t.entries.find? (·.1 == location)).map (·.2)

/-- **Put** a node at a location, in place of the one there. -/
def put (t : FileTree) (location : Location) (node : Node) : FileTree :=
  { t with
    entries :=
      if t.entries.any (·.1 == location) then
        t.entries.map fun entry => if entry.1 = location then (location, node) else entry
      else t.entries ++ [(location, node)] }

/-- **Erase** the node at a location. -/
def erase (t : FileTree) (location : Location) : FileTree :=
  { t with entries := t.entries.filter (·.1 != location) }

/-! ## (2) Walking -/

/-- The longest name, in bytes. -/
def maxNameSize : Nat := 255

/-- The longest path, in bytes. -/
def maxPathSize : Nat := 4095

/-- How many links a path may go through. -/
def maxLinks : Nat := 40

/-- The **names** a path is made of, empty ones included. -/
def names (p : Path) : List String :=
  (Path.pieces p.text.toList).map String.ofList

/-- Where a path **starts**, seen from a location. -/
def start (p : Path) (here : Location) : Location :=
  if p.isAbsolute then [] else here

/-- **Directory** at a location, or the reason why there is none. -/
def requireDirectory (t : FileTree) (location : Location) : Except FileError Unit :=
  match t.node? location with
  | some .directory => .ok ()
  | some _ => .error .notDirectory
  | none => .error .notFound

/-- The **text** of a location, from the root on. -/
def locationText (location : Location) : Path :=
  ⟨"/" ++ String.intercalate "/" location⟩

/-- What a path is walked **for**. -/
inductive Purpose where
  /-- Something is looked for at its end. -/
  | finding
  /-- A file is to be made at its end. Slashes behind the last name ask for a directory, which cannot
  be made that way. -/
  | making
  /-- Its canonical path is wanted. Each location on the way is asked for by its own text. -/
  | naming
deriving Repr, DecidableEq, Inhabited

/-- The names after a name **ask for a directory** there: they end in that directory, or leave it. -/
def askForDirectory (rest : List String) : Bool :=
  rest ≠ [] &&
    match rest.dropWhile (fun name => name = "" || name = ".") with
    | [] => true
    | name :: _ => name = ".."

/-- The text of a location, with a slash if the names after it ask for a directory, is **too long** to
ask for it by. -/
def Purpose.tooLong (purpose : Purpose) (location : Location) (rest : List String) : Bool :=
  purpose = .naming &&
    maxPathSize <
      (locationText location).text.utf8ByteSize + (if askForDirectory rest then 1 else 0)

/-- **Walk** from a location along names, and follow the links on the way. The location that the last
name leads to need not have a node. -/
def walk (t : FileTree) (purpose : Purpose) (links : Nat) (here : Location)
    (path : List String) : Except FileError Location :=
  match path with
  | [] => .ok here
  | name :: rest =>
    match t.requireDirectory here with
    | .error error => .error error
    | .ok () =>
      if name = "" ∨ name = "." then t.walk purpose links here rest
      else if name = ".." then t.walk purpose links here.dropLast rest
      else if purpose = .making ∧ rest ≠ [] ∧ rest.all (· = "") then .error .isDirectory
      else if maxNameSize < name.utf8ByteSize then .error .nameTooLong
      else
        let next := here ++ [name]
        match t.node? next with
        | some (.link target) =>
          if purpose.tooLong next [] then .error .nameTooLong
          else
            match links with
            | 0 => .error .tooManyLinks
            | links + 1 => t.walk purpose links (start target here) (names target ++ rest)
        | _ =>
          if purpose.tooLong next rest then .error .nameTooLong
          else t.walk purpose links next rest
termination_by (links, path.length)

/-- A path **can be named** if it holds no null character. -/
def requireText (p : Path) : Except FileError Unit :=
  if p.text.toList.contains '\x00' then .error .nullInName else .ok ()

/-- A path **can be asked for** if it is neither empty nor too long. -/
def requireSize (p : Path) : Except FileError Unit :=
  if p.text.isEmpty then .error .notFound
  else if maxPathSize < p.text.utf8ByteSize then .error .nameTooLong
  else .ok ()

/-- Where a **path** leads, with its last link followed. -/
def locate (t : FileTree) (purpose : Purpose) (p : Path) : Except FileError Location := do
  requireText p
  requireSize p
  t.walk purpose maxLinks (start p t.working) (names p)

/-- The **last name** of a path, not followed, in the directory before it. -/
structure LastName where
  directory : Location
  name : String
  /-- Slashes come after it. -/
  slash : Bool

/-- The **last name** of a path; none if the path is only slashes. -/
def lastName (t : FileTree) (p : Path) : Except FileError LastName := do
  requireText p
  requireSize p
  let reversed := (names p).reverse
  match reversed.dropWhile (· = "") with
  | [] => return ⟨[], "", true⟩
  | name :: before =>
    let directory ← t.walk .finding maxLinks (start p t.working) before.reverse
    t.requireDirectory directory
    return ⟨directory, name, reversed.head? == some ""⟩

/-- The last name **is a name**, and does not lead elsewhere. -/
def LastName.isName (l : LastName) : Bool :=
  l.name ≠ "" && l.name ≠ "." && l.name ≠ ".."

/-- The **location** of the last name. -/
def LastName.location (l : LastName) : Except FileError Location :=
  if maxNameSize < l.name.utf8ByteSize then .error .nameTooLong
  else .ok (l.directory ++ [l.name])

/-! ## (3) Operations -/

/-- **Read** a file. -/
def read (t : FileTree) (p : Path) : Except FileError (List UInt8) := do
  match t.node? (← t.locate .finding p) with
  | some (.file contents) => return contents
  | some _ => throw .isDirectory
  | none => throw .notFound

/-- **Write** a file. -/
def write (t : FileTree) (p : Path) (contents : List UInt8) : Except FileError FileTree := do
  let location ← t.locate .making p
  match t.node? location with
  | none | some (.file _) => return t.put location (.file contents)
  | some _ => throw .isDirectory

/-- **Rename** a file or a link. Directories keep their names. -/
def rename (t : FileTree) (old new : Path) : Except FileError FileTree := do
  requireText old
  requireText new
  let oldName ← t.lastName old
  let newName ← t.lastName new
  if !(oldName.isName && newName.isName) then throw .busy
  let source ← oldName.location
  match t.node? source with
  | none => throw .notFound
  | some .directory => throw .isDirectory
  | some node =>
    let target ← newName.location
    if oldName.slash || newName.slash then throw .notDirectory
    if t.node? target = some .directory then throw .isDirectory
    return if source = target then t else (t.erase source).put target node

/-- **Remove** a file or a link. -/
def remove (t : FileTree) (p : Path) : Except FileError FileTree := do
  let last ← t.lastName p
  if !last.isName then throw .isDirectory
  let location ← last.location
  match t.node? location with
  | none => throw .notFound
  | some .directory => throw .isDirectory
  | some _ =>
    if last.slash then throw .notDirectory
    return t.erase location

/-- **File** at the end of a path. -/
def isFile (t : FileTree) (p : Path) : Bool :=
  (t.read p).toBool

/-- **Canonical** path of what is at the end of a path. The path is taken name by name, so that it
may be long itself, but no location on the way may have a long text. -/
def canonical? (t : FileTree) (p : Path) : Option Path :=
  let found : Except FileError Path := do
    requireText p
    if p.text.isEmpty then throw .notFound
    let location ← t.walk .naming maxLinks (start p t.working) (names p)
    match t.node? location with
    | some _ => return locationText location
    | none => throw .notFound
  found.toOption

/-- **Make directories** along names from a location, where there are none. -/
def makeAlong (t : FileTree) (here : Location) : List String → Except FileError FileTree
  | [] => .ok t
  | name :: rest => do
    let next ← t.walk .finding maxLinks here [name]
    match t.node? next with
    | some .directory => t.makeAlong next rest
    | some _ => throw .notDirectory
    | none => (t.put next .directory).makeAlong next rest

/-- **Make directories** along a path, where there are none. -/
def makeDirectories (t : FileTree) (p : Path) : Except FileError FileTree :=
  t.makeAlong (start p t.working) (names p)

/-- **Make a link** under a path that nothing has yet. -/
def makeLink (t : FileTree) (target p : Path) : Except FileError FileTree := do
  let last ← t.lastName p
  if !last.isName || last.slash then throw .notFound
  let location ← last.location
  match t.node? location with
  | none => return t.put location (.link target)
  | some _ => throw (.other "File exists (os error 17)")

/-- **Listing** of everything below the working directory, in the order of the names: directories
without contents, files and links with the contents they lead to, which are empty for a link to no
file. -/
def listing (t : FileTree) : List (String × Option (List UInt8)) :=
  let below := t.entries.filterMap fun (location, node) =>
    if t.working.isPrefixOf location && location != t.working then
      let name := String.intercalate "/" (location.drop t.working.length)
      match node with
      | .directory => some (name, none)
      | .file contents => some (name, some contents)
      | .link _ => some (name, some ((t.read ⟨name⟩).toOption.getD []))
    else none
  below.mergeSort fun a b => a.1 ≤ b.1

end FileTree

/-! ## (4) Worlds -/

/-- A **world**: a file tree and the records made so far. -/
structure World where
  tree : FileTree
  journal : Array Record
deriving Repr, DecidableEq, Inhabited

namespace World

/-- The **records** made so far, the oldest first. -/
def records (w : World) : List Record :=
  w.journal.toList

/-- Try a **change** of the tree. A change that fails leaves the tree as it is. -/
def change (f : FileTree → Except FileError FileTree) : StateM World (Except FileError Unit) :=
  modifyGet fun world =>
    match f world.tree with
    | .ok tree => (.ok (), { world with tree })
    | .error error => (.error error, world)

instance : FileSystem (StateM World) where
  read p := return (← get).tree.read p
  write p contents := change (·.write p contents)
  rename old new := change (·.rename old new)
  remove p := change (·.remove p)
  isFile p := return (← get).tree.isFile p
  canonical? p := return (← get).tree.canonical? p

instance : Journal (StateM World) where
  record r := modify fun world => { world with journal := world.journal.push r }

end World

end Hotpatch
