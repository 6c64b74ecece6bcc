/-! # Paths

A path is a text of names separated by slashes. It is printed as it was written; two paths are
compared by their components, which leave out repeated slashes and inner or trailing dots.

* **`Path.components`** — what a path says, name by name.
* **`Path.join`**, **`Path.parent?`**, **`Path.fileName?`** — one step down, one step up, the last
  name.
* **`Path.withFileName`**, **`Path.withExtension`** — a neighbour of the file, by another name or
  another extension. -/

namespace Hotpatch

/-- A **path**, as written. -/
structure Path where
  text : String
deriving Repr, DecidableEq, Inhabited

namespace Path

/-! ## (1) Pieces and components -/

/-- **Pieces** of a text: the stretches between its slashes, empty ones included. -/
def pieces : List Char → List (List Char)
  | [] => [[]]
  | c :: rest =>
    if c = '/' then [] :: pieces rest
    else
      match pieces rest with
      | piece :: more => (c :: piece) :: more
      | [] => [[c]]

/-- A **component** of a path. -/
inductive Component where
  | root
  | current
  | parent
  | name (text : String)
deriving Repr, DecidableEq

/-- **Absolute**: the path starts with a slash. -/
def isAbsolute (p : Path) : Bool :=
  p.text.toList.head? == some '/'

/-- The component an inner piece stands for: none if it is empty or a dot. -/
def Component.ofPiece? (piece : List Char) : Option Component :=
  if piece = [] || piece = ['.'] then none
  else if piece = ['.', '.'] then some .parent
  else some (.name (String.ofList piece))

/-- **Components** of a path. A dot counts only as the first piece of a relative path. -/
def components (p : Path) : List Component :=
  let ps := pieces p.text.toList
  let inner := ps.tail.filterMap Component.ofPiece?
  if p.isAbsolute then .root :: inner
  else if ps.head? = some ['.'] then .current :: inner
  else (ps.head?.bind Component.ofPiece?).toList ++ inner

/-- **Same path** by components. -/
def sameAs (a b : Path) : Bool :=
  a.components == b.components

/-! ## (2) The last component

The pieces that come after the last component are empty or dots, and go with it. -/

/-- A piece that makes a component, given whether it is the first piece of its path. -/
def significant (first : Bool) (piece : List Char) : Bool :=
  piece ≠ [] && (piece ≠ ['.'] || first)

/-- **Trimmed** pieces: those up to the last one that makes a component. -/
def trimmed : Bool → List (List Char) → List (List Char)
  | _, [] => []
  | first, piece :: more =>
    match trimmed false more with
    | [] => if significant first piece then [piece] else []
    | rest => piece :: rest

/-- A path from its pieces. -/
def ofPieces (ps : List (List Char)) : Path :=
  ⟨String.intercalate "/" (ps.map String.ofList)⟩

/-- **Parent**: the path without its last component, and none if it has no component but a root. -/
def parent? (p : Path) : Option Path :=
  match trimmed true (pieces p.text.toList) with
  | [] => none
  | ps =>
    match trimmed true ps.dropLast with
    | [] => some (if p.isAbsolute then ⟨"/"⟩ else ⟨""⟩)
    | rest => some (ofPieces rest)

/-- **File name**: the last component, if it is a name. -/
def fileName? (p : Path) : Option String :=
  match (trimmed true (pieces p.text.toList)).getLast? with
  | none => none
  | some piece =>
    if piece = ['.'] || piece = ['.', '.'] then none else some (String.ofList piece)

/-! ## (3) Building paths -/

/-- **Join**: the second path below the first. An absolute one replaces it, and no slash is added
to a path that is empty or ends in one. -/
def join (base : Path) (below : String) : Path :=
  if below.toList.head? == some '/' then ⟨below⟩
  else if base.text.isEmpty || base.text.toList.getLast? == some '/' then ⟨base.text ++ below⟩
  else ⟨base.text ++ "/" ++ below⟩

/-- **Another file name** in place of the last one; below the path if that has none. -/
def withFileName (p : Path) (name : String) : Path :=
  match p.fileName? with
  | some _ => (p.parent?.getD ⟨""⟩).join name
  | none => p.join name

/-- **Stem** of a file name: what comes before its last dot. A name whose only dot is its first
character has no extension. -/
def stem (name : List Char) : List Char :=
  let before := (name.reverse.dropWhile (· ≠ '.')).tail.reverse
  if before = [] then name else before

/-- **Another extension** in place of the old one; a path without a file name stays as it is. The old
extension is taken off first, and if two dots are all that is left of the file name, they lead to the
parent and get no extension. -/
def withExtension (p : Path) (extension : String) : Path :=
  match p.fileName? with
  | none => p
  | some name =>
    let kept := (trimmed true (pieces p.text.toList)).dropLast
    let stem := stem name.toList
    if stem = ['.'] && (pieces p.text.toList).getLast? == some name.toList then
      ofPieces (kept ++ [['.', '.']])
    else ofPieces (kept ++ [stem ++ '.' :: extension.toList])

end Path

end Hotpatch
