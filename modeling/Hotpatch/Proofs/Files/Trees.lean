import Hotpatch.Files.Tree
import Hotpatch.Proofs.Effects
import Hotpatch.Proofs.Files.Disk
import Hotpatch.Proofs.Files.Paths

/-! # Trees as disks

A file tree, seen from paths that lead to places of their own, is a disk that refuses nothing.

* **`FileTree.node?_put`**, **`FileTree.node?_erase`** — what a change leaves at each location.
* **`FileTree.SameShape`** — trees with the same directories and links, on which paths lead to the same
  locations (`walk_append`).
* **`FileTree.Reaches`** — a path leads to a location by its last name, and there is no link. A name alone
  does (`reaches_name`).
* **`Reaches.write_eq`**, **`Reaches.remove_eq`**, **`Reaches.rename_eq`** — the operations on such paths.
* **`FileTree.Shows`** — a tree holds at some paths what a disk holds at their places. -/

namespace Hotpatch

namespace FileTree

variable {t t' : FileTree} {location source target other : Location} {node : Node} {p old new : Path}

/-! ## (1) Nodes -/

/-- The root is a directory. -/
@[simp] theorem node?_nil (t : FileTree) : t.node? [] = some .directory := rfl

/-- Entries of which one location got another node. -/
theorem find?_map_put (entries : List (Location × Node)) (location : Location) (node : Node) (other : Location) :
    (entries.map fun entry => if entry.1 = location then (location, node) else entry).find? (·.1 == other)
      = (entries.find? (·.1 == other)).map fun entry => if other = location then (location, node) else entry := by
  have keeps : ((·.1 == other) ∘ fun entry : Location × Node =>
      if entry.1 = location then (location, node) else entry) = (·.1 == other) := by
    funext entry
    by_cases here : entry.1 = location
    · simp [here]
    · simp [here]
  rw [List.find?_map, keeps]
  cases found : entries.find? (·.1 == other) with
  | none => rfl
  | some entry =>
    obtain rfl : entry.1 = other := by simpa using List.find?_some found
    rfl

/-- **A node that is put** is at its location, and the others stay. -/
@[grind =] theorem node?_put (below : location ≠ []) (t : FileTree) (node : Node) (other : Location) :
    (t.put location node).node? other = if other = location then some node else t.node? other := by
  by_cases root : other = []
  · subst root
    rw [if_neg below.symm]
    rfl
  · rw [node?, node?, if_neg root, if_neg root, put]
    -- Where something is listed at the location, it is replaced there; else the node comes last.
    split_ifs with listed here here
    · obtain ⟨entry, mem, same⟩ := List.any_eq_true.mp listed
      have found : (t.entries.find? (·.1 == other)).isSome :=
        List.find?_isSome.mpr ⟨entry, mem, by rw [here]; exact same⟩
      obtain ⟨first, found⟩ := Option.isSome_iff_exists.mp found
      rw [find?_map_put, found]
      simp [here]
    · rw [find?_map_put]
      simp [here]
    · have none : t.entries.find? (·.1 == location) = none :=
        List.find?_eq_none.mpr fun entry mem same => listed (List.any_eq_true.mpr ⟨entry, mem, same⟩)
      rw [here, List.find?_append, none]
      simp
    · rw [List.find?_append]
      simp [Ne.symm here]

/-- **A node that is erased** is gone, and the others stay. -/
@[grind =] theorem node?_erase (below : location ≠ []) (t : FileTree) (other : Location) :
    (t.erase location).node? other = if other = location then none else t.node? other := by
  by_cases root : other = []
  · subst root
    rw [if_neg below.symm]
    rfl
  · rw [node?, node?, if_neg root, if_neg root, erase, List.find?_filter]
    split_ifs with here
    · subst here
      simp
    · congr 2
      funext entry
      by_cases same : entry.1 = other
      · simp [same, here]
      · simp [same]

/-! ## (2) Shapes -/

/-- There is a directory if it can be required. -/
@[simp] theorem requireDirectory_eq_ok_iff :
    t.requireDirectory location = .ok () ↔ t.node? location = some .directory := by
  rw [requireDirectory]
  split <;> simp_all

/-- Trees of the **same shape**: they have the same directories and links, but perhaps other files. -/
structure SameShape (t t' : FileTree) : Prop where
  working : t'.working = t.working
  directories : ∀ location, t'.node? location = some .directory ↔ t.node? location = some .directory
  links : ∀ location target, t'.node? location = some (.link target) ↔ t.node? location = some (.link target)

/-- A tree has its own shape. -/
@[refl] theorem SameShape.refl (t : FileTree) : t.SameShape t :=
  ⟨rfl, fun _ => .rfl, fun _ _ => .rfl⟩

/-- **Changes of one location** keep the shape, if no directory and no link is there before or after it. -/
theorem SameShape.of_update {node? : Option Node} (working : t'.working = t.working)
    (changed : ∀ other, t'.node? other = if other = location then node? else t.node? other)
    (file : ∀ node, t.node? location = some node → ∃ contents, node = .file contents)
    (file' : ∀ node, node? = some node → ∃ contents, node = .file contents) : t.SameShape t' := by
  have alike (other : Location) (node : Node) (notFile : ∀ contents, node ≠ .file contents) :
      t'.node? other = some node ↔ t.node? other = some node := by
    rw [changed]
    split_ifs with here
    · subst here
      exact iff_of_false (fun same => (file' node same).elim notFile) fun same => (file node same).elim notFile
    · rfl
  exact ⟨working, fun other => alike other _ nofun, fun other target => alike other _ nofun⟩

/-- **A walk goes on** from where its first part ends, on every tree of the same shape. -/
theorem walk_append (same : t.SameShape t') {purpose : Purpose} {links : Nat} {here there : Location}
    {front behind : List String} (walked : t.walk .finding links here front = .ok there)
    (asks : purpose = .finding ∨ purpose = .making ∧ ∃ name ∈ behind, name ≠ "") :
    ∃ left, t'.walk purpose links here (front ++ behind) = t'.walk purpose left there behind := by
  have notNaming (location : Location) (rest : List String) : purpose.tooLong location rest = false := by
    rcases asks with rfl | ⟨rfl, -⟩ <;> rfl
  have notBlocked (rest : List String) :
      ¬ (purpose = .making ∧ rest ++ behind ≠ [] ∧ (rest ++ behind).all (· = "")) := by
    rintro ⟨making, -, blank⟩
    rcases asks with finding | ⟨-, name, mem, some⟩
    · rw [finding] at making
      cases making
    · exact some (by simpa using List.all_eq_true.mp blank name (List.mem_append_right _ mem))
  have directory {location : Location} (ok : t.requireDirectory location = .ok ()) :
      t'.requireDirectory location = .ok () :=
    requireDirectory_eq_ok_iff.mpr ((same.directories location).mpr (requireDirectory_eq_ok_iff.mp ok))
  -- The walk along `front` ends well, so all it meets are directories and links, and these are the same.
  fun_induction t.walk .finding links here front with
  | case1 links here =>
    obtain rfl := Except.ok.inj walked
    exact ⟨links, rfl⟩
  | case2 | case5 | case6 | case7 | case8 | case10 => cases walked
  | case3 links here name rest ok blank ih =>
    rw [List.cons_append, walk, directory ok]
    dsimp only
    rw [if_pos blank]
    exact ih walked
  | case4 links here rest ok notBlank ih =>
    rw [List.cons_append, walk, directory ok]
    dsimp only
    rw [if_neg notBlank, if_pos rfl]
    exact ih walked
  | case9 here name rest ok notBlank notUp _ short next target link _ links ih =>
    rw [List.cons_append, walk, directory ok]
    dsimp only
    rw [if_neg notBlank, if_neg notUp, if_neg (notBlocked rest), if_neg short,
      (same.links _ target).mpr link]
    dsimp only
    rw [notNaming, if_neg (by decide), ← List.append_assoc]
    exact ih walked
  | case11 links here name rest ok notBlank notUp _ short next _ notLink ih =>
    rw [List.cons_append, walk, directory ok]
    dsimp only
    rw [if_neg notBlank, if_neg notUp, if_neg (notBlocked rest), if_neg short]
    split
    · next target link => exact absurd ((same.links _ target).mp link) (notLink target)
    · rw [notNaming, if_neg (by decide)]
      exact ih walked

/-- **Paths lead where they led** on a tree of the same shape. -/
theorem walk_of_sameShape (same : t.SameShape t') {links : Nat} {here there : Location} {path : List String}
    (walked : t.walk .finding links here path = .ok there) : t'.walk .finding links here path = .ok there := by
  obtain ⟨left, goesOn⟩ : ∃ left, t'.walk .finding links here (path ++ []) = t'.walk .finding left there [] :=
    walk_append same walked (.inl rfl)
  rw [List.append_nil, walk] at goesOn
  exact goesOn

/-! ## (3) Paths -/

/-- A path **reaches** a location: its last name stands there for a file or for nothing yet, in a directory
that the names before it lead to. -/
structure Reaches (t : FileTree) (p : Path) (location : Location) : Prop where
  text : requireText p = .ok ()
  size : requireSize p = .ok ()
  leads : ∃ front directory name, names p = front ++ [name]
    ∧ t.walk .finding maxLinks (start p t.working) front = .ok directory
    ∧ t.node? directory = some .directory ∧ name ∉ ["", ".", ".."] ∧ name.utf8ByteSize ≤ maxNameSize
    ∧ location = directory ++ [name]
  noLink : ∀ target, t.node? location ≠ some (.link target)

/-- A location that is reached is not the root. -/
theorem Reaches.ne_nil (reaches : t.Reaches p location) : location ≠ [] := by
  obtain ⟨_, _, _, -, -, -, -, -, rfl⟩ := reaches.leads
  simp

/-- **The last name** of a path that reaches a location. -/
theorem Reaches.exists_lastName (reaches : t.Reaches p location) :
    ∃ last, t.lastName p = .ok last ∧ last.isName = true ∧ last.slash = false
      ∧ last.location = .ok location := by
  obtain ⟨front, directory, name, whole, walked, isDirectory, isName, short, rfl⟩ := reaches.leads
  obtain ⟨some, notDot, notDots⟩ : name ≠ "" ∧ name ≠ "." ∧ name ≠ ".." := by simpa using isName
  refine ⟨⟨directory, name, false⟩, ?_, by simp [LastName.isName, some, notDot, notDots], rfl, ?_⟩
  · have pieces : (names p).reverse = name :: front.reverse := by
      rw [whole, List.reverse_concat]
    have kept : (names p).reverse.dropWhile (· = "") = name :: front.reverse := by
      rw [pieces, List.dropWhile_cons_of_neg (by simpa using some)]
    have slash : ((names p).reverse.head? == .some "") = false := by
      rw [pieces]
      simpa using some
    rw [lastName, Attempt.bind_of_ok reaches.text, Attempt.bind_of_ok reaches.size]
    simp only [kept]
    rw [List.reverse_reverse, Attempt.bind_of_ok walked,
      Attempt.bind_of_ok (requireDirectory_eq_ok_iff.mpr isDirectory), slash]
    rfl
  · rw [LastName.location, if_neg (Nat.not_lt.mpr short)]

/-- **To make a file** at the end of such a path is to make it there. -/
theorem Reaches.locate_eq (reaches : t.Reaches p location) : t.locate .making p = .ok location := by
  obtain ⟨front, directory, name, whole, walked, isDirectory, isName, short, rfl⟩ := reaches.leads
  obtain ⟨some, notDot, notDots⟩ : name ≠ "" ∧ name ≠ "." ∧ name ≠ ".." := by simpa using isName
  obtain ⟨left, goesOn⟩ :=
    walk_append (.refl t) walked (.inr ⟨rfl, name, List.mem_singleton_self name, some⟩)
  rw [locate, reaches.text, reaches.size]
  show t.walk .making maxLinks (start p t.working) (names p) = _
  rw [whole, goesOn, walk, requireDirectory_eq_ok_iff.mpr isDirectory]
  dsimp only
  rw [if_neg (by simp [some, notDot]), if_neg notDots, if_neg (by simp), if_neg (Nat.not_lt.mpr short)]
  split
  · next target link => exact absurd link (reaches.noLink target)
  · rw [walk]
    rfl

/-- **Such a path** reaches the location on a tree of the same shape too. -/
theorem Reaches.of_sameShape (reaches : t.Reaches p location) (same : t.SameShape t') :
    t'.Reaches p location := by
  obtain ⟨front, directory, name, whole, walked, isDirectory, isName, short, rfl⟩ := reaches.leads
  refine ⟨reaches.text, reaches.size, ⟨front, directory, name, whole, ?_, (same.directories _).mpr isDirectory,
    isName, short, rfl⟩, fun target => mt (same.links _ target).mp (reaches.noLink target)⟩
  rw [same.working]
  exact walk_of_sameShape same walked

/-- **A name** alone reaches what is below the working directory. -/
theorem reaches_name {name : String} (isName : name ∉ ["", ".", ".."]) (noSlash : '/' ∉ name.toList)
    (noNull : '\x00' ∉ name.toList) (short : name.utf8ByteSize ≤ maxNameSize)
    (working : t.node? t.working = some .directory)
    (noLink : ∀ target, t.node? (t.working ++ [name]) ≠ some (.link target)) :
    t.Reaches ⟨name⟩ (t.working ++ [name]) := by
  have some : name ≠ "" := fun same => isName (same ▸ List.mem_cons_self)
  have relative : start ⟨name⟩ t.working = t.working := by
    refine if_neg fun absolute => noSlash (List.mem_of_head? ?_)
    simpa [Path.isAbsolute] using absolute
  have whole : names ⟨name⟩ = [name] := by
    rw [names, Path.pieces_eq_splitOn, List.splitOn_eq_singleton noSlash, List.map_singleton,
      String.ofList_toList]
  refine ⟨by simp [requireText, noNull], ?_, ⟨[], t.working, name, whole, ?_, working, isName, short, rfl⟩,
    noLink⟩
  · have fits : name.utf8ByteSize ≤ maxPathSize := Nat.le_trans short (by decide)
    rw [requireSize, if_neg (by simpa using some), if_neg (Nat.not_lt.mpr fits)]
  · rw [relative, walk]

/-! ## (4) Operations -/

/-- **Writing** at the end of such a path fails only where a directory is. -/
theorem Reaches.write_eq (reaches : t.Reaches p location) (contents : List UInt8) :
    t.write p contents = if t.node? location = some .directory then .error .isDirectory
      else .ok (t.put location (.file contents)) := by
  rw [write, Attempt.bind_of_ok reaches.locate_eq]
  cases node : t.node? location with
  | none => rfl
  | some found =>
    cases found with
    | file before => rfl
    | directory => rfl
    | link target => exact absurd node (reaches.noLink target)

/-- **Removing** at the end of such a path takes a file. -/
theorem Reaches.remove_eq (reaches : t.Reaches p location) :
    t.remove p = match t.node? location with
      | none => .error .notFound
      | some .directory => .error .isDirectory
      | some _ => .ok (t.erase location) := by
  obtain ⟨last, found, isName, noSlash, there⟩ := reaches.exists_lastName
  rw [remove, Attempt.bind_of_ok found, isName]
  show (last.location >>= _) = _
  rw [Attempt.bind_of_ok there, noSlash]
  rfl

/-- **Renaming** along such paths takes a file to where no directory is. -/
theorem Reaches.rename_eq (first : t.Reaches old source) (second : t.Reaches new target) :
    t.rename old new = match t.node? source with
      | none => .error .notFound
      | some .directory => .error .isDirectory
      | some node =>
        if t.node? target = some .directory then .error .isDirectory
        else .ok (if source = target then t else (t.erase source).put target node) := by
  obtain ⟨last, found, isName, noSlash, there⟩ := first.exists_lastName
  obtain ⟨last', found', isName', noSlash', there'⟩ := second.exists_lastName
  rw [rename, Attempt.bind_of_ok first.text, Attempt.bind_of_ok second.text, Attempt.bind_of_ok found,
    Attempt.bind_of_ok found', isName, isName']
  show (last.location >>= _) = _
  rw [Attempt.bind_of_ok there]
  cases node : t.node? source with
  | none => rfl
  | some found =>
    cases found with
    | directory => rfl
    | file contents =>
      rw [there', noSlash, noSlash']
      by_cases directory : t.node? target = some .directory
      · simp [directory, bind, Except.bind, throw, throwThe, MonadExceptOf.throw]
      · simp [directory, bind, Except.bind, pure, Except.pure]
    | link target => exact absurd node (first.noLink target)

/-! ## (5) Disks -/

/-- The **item** at a location, as a disk would have it. A link is none. -/
def item? (t : FileTree) (location : Location) : Option Item :=
  match t.node? location with
  | some (.file contents) => some (.file contents)
  | some .directory => some .directory
  | some (.link _) | none => none

/-- A tree **shows a disk** at some paths, given the location of each place: they reach these locations, no
two places are at the same one, and each holds what the disk does. -/
structure Shows (t : FileTree) (located : Place → Location) (paths : List Path) (d : Disk) : Prop where
  reaches : ∀ p ∈ paths, t.Reaches p (located p.components)
  apart : ∀ p ∈ paths, ∀ q ∈ paths,
    located p.components = located q.components → p.components = q.components
  items : ∀ p ∈ paths, d.item? p.components = t.item? (located p.components)

variable {located : Place → Location} {paths : List Path} {d d' : Disk} {node? : Option Node}

/-- The **disk that is shown**: each place holds what its location does. -/
def shown (t : FileTree) (located : Place → Location) : Disk :=
  ⟨fun place => t.item? (located place), [], []⟩

/-- It is shown at paths that reach places of their own. -/
theorem shows_shown (reaches : ∀ p ∈ paths, t.Reaches p (located p.components))
    (apart : ∀ p ∈ paths, ∀ q ∈ paths,
      located p.components = located q.components → p.components = q.components) :
    t.Shows located paths (t.shown located) :=
  ⟨reaches, apart, fun _ _ => rfl⟩

/-- Only what the places hold is shown. -/
theorem Shows.of_item?_eq (shows : t.Shows located paths d) (same : d'.item? = d.item?) :
    t.Shows located paths d' :=
  ⟨shows.reaches, shows.apart, fun p mem => same ▸ shows.items p mem⟩

/-- Where there is a directory, the disk has one. -/
theorem Shows.directory_iff (shows : t.Shows located paths d) (mem : p ∈ paths) :
    d.item? p.components = some .directory ↔ t.node? (located p.components) = some .directory := by
  rw [shows.items p mem, item?]
  split <;> simp_all

/-- At a location that is reached, what is no directory is a file. -/
theorem Reaches.exists_file (reaches : t.Reaches p location) (notDirectory : t.node? location ≠ some .directory)
    (node : Node) (here : t.node? location = some node) : ∃ contents, node = .file contents := by
  cases node with
  | file contents => exact ⟨contents, rfl⟩
  | directory => exact absurd here notDirectory
  | link target => exact absurd here (reaches.noLink target)

/-- **A change of one file** shows as a change at its place. -/
theorem Shows.update (shows : t.Shows located paths d) (mem : p ∈ paths)
    (notDirectory : t.node? (located p.components) ≠ some .directory) (contents? : Option (List UInt8))
    (working : t'.working = t.working)
    (changed : ∀ other, t'.node? other
      = if other = located p.components then contents?.map .file else t.node? other)
    (item : d'.item? = Function.update d.item? p.components (contents?.map .file)) :
    t'.Shows located paths d' := by
  have same : t.SameShape t' :=
    .of_update working changed ((shows.reaches p mem).exists_file notDirectory) fun node here => by
      obtain ⟨contents, -, rfl⟩ := Option.map_eq_some_iff.mp here
      exact ⟨contents, rfl⟩
  refine ⟨fun q mem => (shows.reaches q mem).of_sameShape same, shows.apart, fun q among => ?_⟩
  rw [item]
  by_cases here : q.components = p.components
  · rw [here, Function.update_self, FileTree.item?, changed, if_pos rfl]
    cases contents? <;> rfl
  · rw [Function.update_of_ne here, shows.items q among, FileTree.item?, FileTree.item?, changed,
      if_neg fun there => here (shows.apart q among p mem there)]

/-- **A file that is put** shows at its place. -/
theorem Shows.put (shows : t.Shows located paths d) (mem : p ∈ paths)
    (notDirectory : t.node? (located p.components) ≠ some .directory) {contents : List UInt8}
    (item : d'.item? = Function.update d.item? p.components (some (.file contents))) :
    (t.put (located p.components) (.file contents)).Shows located paths d' :=
  shows.update mem notDirectory (some contents) rfl (node?_put (shows.reaches p mem).ne_nil t _) item

/-- **A file that is erased** shows at its place no more. -/
theorem Shows.erase (shows : t.Shows located paths d) (mem : p ∈ paths)
    (notDirectory : t.node? (located p.components) ≠ some .directory)
    (item : d'.item? = Function.update d.item? p.components none) :
    (t.erase (located p.components)).Shows located paths d' :=
  shows.update mem notDirectory none rfl (node?_erase (shows.reaches p mem).ne_nil t) item

end FileTree

end Hotpatch
