import Hotpatch.Proofs.Files.Trees
import Hotpatch.Proofs.Store.Saving
import Mathlib.Data.List.Nodup

/-! # Saving in a world

Saving a module in a world, at a path next to which all files have places of their own, is saving it on a
disk.

* **`World.Simulates`** — a program on a world that does what one on a disk does.
* **`World.simulates_write`**, **`simulates_rename`**, **`simulates_remove`** — the operations on files.
* **`World.save_eq`** — saving a module.
* **`World.failedSave_of_save`** — what a save that fails leaves in a world. -/

namespace Hotpatch

namespace Disk

variable {d : Disk} {call : Call} {ending : Except FileError (Place → Option Item)}

/-- No call is refused where no refusals wait. -/
theorem concludeUnlessRefused_of_nil (ready : d.refusals = []) :
    d.concludeUnlessRefused call ending = d.conclude call ending := by
  obtain ⟨item?, refusals, calls⟩ := d
  subst ready
  rfl

end Disk

namespace World

variable {located : Place → Location} {paths : List Path} {α β : Type}

/-! ## (1) Simulation -/

/-- From one tree to another, nothing is **changed elsewhere** than at the locations of some paths. -/
def SameElsewhere (located : Place → Location) (paths : List Path) (t t' : FileTree) : Prop :=
  ∀ other ∉ paths.map (located ·.components), t'.node? other = t.node? other

/-- A program on a world **simulates** one on a disk that refuses nothing: where the tree shows the disk, both
have the same result, the tree shows the disk afterwards, and it has changed nowhere else. -/
def Simulates (located : Place → Location) (paths : List Path) (x : StateM World α) (y : StateM Disk α) :
    Prop :=
  ∀ (w : World) (d : Disk), w.tree.Shows located paths d → d.refusals = [] →
    (x.run w).1 = (y.run d).1 ∧ (x.run w).2.tree.Shows located paths (y.run d).2
      ∧ (y.run d).2.refusals = [] ∧ SameElsewhere located paths w.tree (x.run w).2.tree

/-- A result is the same everywhere. -/
theorem simulates_pure (a : α) : Simulates located paths (pure a) (pure a) :=
  fun _ _ shows ready => ⟨rfl, shows, ready, fun _ _ => rfl⟩

/-- Programs **one after the other**. The second is given what the first can end with. -/
theorem Simulates.bind_of_run {x : StateM World α} {y : StateM Disk α} {f : α → StateM World β}
    {g : α → StateM Disk β} (first : Simulates located paths x y)
    (rest : ∀ a d d', y.run d = (a, d') → Simulates located paths (f a) (g a)) :
    Simulates located paths (x >>= f) (y >>= g) := by
  intro w d shows ready
  obtain ⟨same, shows', ready', kept⟩ := first w d shows ready
  rw [StateT.run_bind, StateT.run_bind]
  generalize x.run w = ending at same shows' kept ⊢
  generalize ended : y.run d = ending' at same shows' ready' ⊢
  obtain ⟨a, w'⟩ := ending
  obtain ⟨a', d'⟩ := ending'
  obtain rfl : a = a' := same
  obtain ⟨same', shows'', ready'', kept'⟩ := rest a d d' ended w' d' shows' ready'
  exact ⟨same', shows'', ready'', fun other outside => (kept' other outside).trans (kept other outside)⟩

/-- Programs one after the other, of which the second does the same whatever it is given. -/
theorem Simulates.bind {x : StateM World α} {y : StateM Disk α} {f : α → StateM World β}
    {g : α → StateM Disk β} (first : Simulates located paths x y) (rest : ∀ a, Simulates located paths (f a) (g a)) :
    Simulates located paths (x >>= f) (y >>= g) :=
  first.bind_of_run fun a _ _ _ => rest a

/-- A **record** changes no file. -/
theorem simulates_record (r : Record) :
    Simulates located paths (Journal.record r) (Journal.record r) :=
  fun _ _ shows ready => ⟨rfl, shows, ready, fun _ _ => rfl⟩

/-! ## (2) Operations -/

/-- **Outcomes agree** if a change of a tree and a call to a disk both take effect, so that the one shows the
other and is changed nowhere else, or end with the same error. -/
def Agree (located : Place → Location) (paths : List Path) (t : FileTree) :
    Except FileError FileTree → Except FileError (Place → Option Item) → Prop
  | .ok tree, .ok item? => tree.Shows located paths ⟨item?, [], []⟩ ∧ SameElsewhere located paths t tree
  | .error error, .error error' => error = error'
  | _, _ => False

/-- A change that is made. -/
theorem change_run_of_ok {f : FileTree → Except FileError FileTree} {w : World} {tree : FileTree}
    (changed : f w.tree = .ok tree) : (change f).run w = (.ok (), { w with tree }) := by
  simp only [change, StateT.run_modifyGet, changed]
  rfl

/-- A change that fails. -/
theorem change_run_of_error {f : FileTree → Except FileError FileTree} {w : World} {error : FileError}
    (failed : f w.tree = .error error) : (change f).run w = (.error error, w) := by
  simp only [change, StateT.run_modifyGet, failed]
  rfl

/-- **A change simulates a call** if their outcomes agree wherever the tree shows the disk. -/
theorem simulates_change {f : FileTree → Except FileError FileTree} {call : Call}
    {ending : Disk → Except FileError (Place → Option Item)} {y : StateM Disk (Except FileError Unit)}
    (calls : ∀ d, d.refusals = [] → y.run d = d.conclude call (ending d))
    (agree : ∀ t d, t.Shows located paths d → Agree located paths t (f t) (ending d)) :
    Simulates located paths (change f) y := by
  intro w d shows ready
  have both := agree w.tree d shows
  rw [calls d ready]
  cases changed : f w.tree with
  | ok tree =>
    rw [change_run_of_ok changed]
    cases called : ending d with
    | ok item? =>
      rw [changed, called] at both
      exact ⟨rfl, both.1.of_item?_eq rfl, ready, both.2⟩
    | error error =>
      rw [changed, called] at both
      exact both.elim
  | error error =>
    rw [change_run_of_error changed]
    cases called : ending d with
    | ok item? =>
      rw [changed, called] at both
      exact both.elim
    | error error' =>
      rw [changed, called] at both
      obtain rfl : error = error' := both
      exact ⟨rfl, shows.of_item?_eq rfl, ready, fun _ _ => rfl⟩

variable {p old new : Path}

/-- What is put at the location of a path changes nothing elsewhere. -/
theorem sameElsewhere_put (mem : p ∈ paths) (below : located p.components ≠ []) (t : FileTree) (node : Node) :
    SameElsewhere located paths t (t.put (located p.components) node) := by
  intro other outside
  have apart : other ≠ located p.components := fun here => outside (List.mem_map.mpr ⟨p, mem, here.symm⟩)
  rw [FileTree.node?_put below, if_neg apart]

/-- What is erased there changes nothing elsewhere. -/
theorem sameElsewhere_erase (mem : p ∈ paths) (below : located p.components ≠ []) (t : FileTree) :
    SameElsewhere located paths t (t.erase (located p.components)) := by
  intro other outside
  have apart : other ≠ located p.components := fun here => outside (List.mem_map.mpr ⟨p, mem, here.symm⟩)
  rw [FileTree.node?_erase below, if_neg apart]

/-- **Writing** simulates writing. -/
theorem simulates_write (mem : p ∈ paths) (contents : List UInt8) :
    Simulates located paths (FileSystem.write p contents) (FileSystem.write p contents) := by
  refine simulates_change (fun d ready => Disk.concludeUnlessRefused_of_nil ready) fun t d shows => ?_
  have reaches := shows.reaches p mem
  rw [reaches.write_eq]
  by_cases directory : t.node? (located p.components) = some .directory
  · rw [if_pos directory, if_pos ((shows.directory_iff mem).mpr directory)]
    rfl
  · rw [if_neg directory, if_neg (mt (shows.directory_iff mem).mp directory)]
    exact ⟨shows.put mem directory rfl, sameElsewhere_put mem reaches.ne_nil t _⟩

/-- **Removing** simulates removing. -/
theorem simulates_remove (mem : p ∈ paths) :
    Simulates located paths (FileSystem.remove p) (FileSystem.remove p) := by
  refine simulates_change (fun d ready => rfl) fun t d shows => ?_
  have reaches := shows.reaches p mem
  rw [reaches.remove_eq, shows.items p mem, FileTree.item?]
  cases node : t.node? (located p.components) with
  | none => rfl
  | some found =>
    cases found with
    | file contents => exact ⟨shows.erase mem (by simp [node]) rfl, sameElsewhere_erase mem reaches.ne_nil t⟩
    | directory => rfl
    | link target => exact absurd node (reaches.noLink target)

/-- **Renaming** simulates renaming. -/
theorem simulates_rename (first : old ∈ paths) (second : new ∈ paths) :
    Simulates located paths (FileSystem.rename old new) (FileSystem.rename old new) := by
  refine simulates_change (fun d ready => Disk.concludeUnlessRefused_of_nil ready) fun t d shows => ?_
  have reaches := shows.reaches old first
  have reaches' := shows.reaches new second
  rw [reaches.rename_eq reaches', shows.items old first, FileTree.item?]
  cases node : t.node? (located old.components) with
  | none => rfl
  | some found =>
    cases found with
    | directory => rfl
    | link target => exact absurd node (reaches.noLink target)
    | file contents =>
      dsimp only
      by_cases directory : t.node? (located new.components) = some .directory
      · rw [if_pos directory, if_pos ((shows.directory_iff second).mpr directory)]
        rfl
      · rw [if_neg directory, if_neg (mt (shows.directory_iff second).mp directory)]
        show FileTree.Shows _ _ _ _ ∧ SameElsewhere _ _ _ _
        split_ifs with same
        · -- The file keeps its place.
          have there : d.item? new.components = some (.file contents) := by
            rw [shows.items new second, ← same, FileTree.item?, node]
          rw [shows.apart old first new second same]
          refine ⟨shows.of_item?_eq ?_, fun _ _ => rfl⟩
          show Function.update (Function.update d.item? new.components none) new.components _ = _
          rw [Function.update_idem, ← there, Function.update_eq_self]
        · have erased : (t.erase (located old.components)).Shows located paths
              ⟨Function.update d.item? old.components none, [], []⟩ := shows.erase first (by simp [node]) rfl
          have kept : (t.erase (located old.components)).node? (located new.components)
              ≠ some .directory := by
            rw [FileTree.node?_erase reaches.ne_nil, if_neg (Ne.symm same)]
            exact directory
          refine ⟨erased.put second kept rfl, fun other outside => ?_⟩
          rw [sameElsewhere_put second reaches'.ne_nil _ _ other outside,
            sameElsewhere_erase first reaches.ne_nil _ other outside]

/-! ## (3) Saving -/

variable {staged placed : List Path}

/-- **Discarding** simulates discarding. -/
theorem simulates_discard (inside : ∀ p ∈ staged, p ∈ paths) :
    Simulates located paths (discard staged) (discard staged) := by
  induction staged with
  | nil => exact simulates_pure ()
  | cons p rest ih =>
    obtain ⟨here, others⟩ := List.forall_mem_cons.mp inside
    exact (simulates_remove here).bind fun _ => ih others

/-- **Staging** simulates staging. -/
theorem simulates_stageAll {files : List (Path × List UInt8)} (inside : ∀ p ∈ staged, p ∈ paths)
    (staging : ∀ file ∈ files, stagingPath file.1 ∈ paths) :
    Simulates located paths (stageAll staged files) (stageAll staged files) := by
  induction files generalizing staged with
  | nil => exact simulates_pure _
  | cons file rest ih =>
    obtain ⟨here, others⟩ := List.forall_mem_cons.mp staging
    have more : ∀ p ∈ staged ++ [stagingPath file.1], p ∈ paths := by
      simpa [or_imp, forall_and] using ⟨inside, here⟩
    refine (simulates_write here file.2).bind fun result => ?_
    cases result with
    | ok _ => exact ih more others
    | error error => exact (simulates_discard more).bind fun _ => simulates_pure _

/-- **Moving** simulates moving. -/
theorem simulates_moveAll {pairs : List (Path × Path)} (inside : ∀ p ∈ staged, p ∈ paths)
    (inside' : ∀ p ∈ placed, p ∈ paths) (moved : ∀ pair ∈ pairs, pair.1 ∈ paths ∧ pair.2 ∈ paths) :
    Simulates located paths (moveAll staged placed pairs) (moveAll staged placed pairs) := by
  induction pairs generalizing placed with
  | nil => exact simulates_pure _
  | cons pair rest ih =>
    obtain ⟨⟨source, target⟩, others⟩ := List.forall_mem_cons.mp moved
    refine (simulates_record _).bind fun _ => (simulates_rename source target).bind fun result => ?_
    cases result with
    | ok _ => exact ih (by simpa [or_imp, forall_and] using ⟨inside', target⟩) others
    | error error =>
      exact (simulates_discard inside).bind fun _ => (simulates_discard inside').bind fun _ => simulates_pure _

/-- **Writing files** simulates writing them. -/
theorem simulates_writeAll {files : List (Path × List UInt8)}
    (places : ∀ file ∈ files, file.1 ∈ paths) (staging : ∀ file ∈ files, stagingPath file.1 ∈ paths) :
    Simulates located paths (writeAll files) (writeAll files) := by
  refine (simulates_stageAll (List.forall_mem_nil _) staging).bind_of_run fun result d d' ended => ?_
  cases result with
  | error error => exact simulates_pure _
  | ok all =>
    -- What is moved are the staged files, and each of them has its place.
    have spec := stageAll_spec files [] d
    rw [ended] at spec
    obtain ⟨rfl, -⟩ := spec
    refine simulates_moveAll (List.forall_mem_map.mpr staging) (List.forall_mem_nil _) fun pair mem => ?_
    rw [List.nil_append, List.zip_map', List.mem_reverse] at mem
    obtain ⟨file, among, rfl⟩ := List.mem_map.mp mem
    exact ⟨staging file among, places file among⟩

/-- **Save** a module in the image store in a world. -/
def save (w : World) (readSymbols writeSymbols : Bool) (module : Module) (path : Path) :
    Except Fault Unit × World :=
  (((imageStore readSymbols writeSymbols).save module path : ExceptT Fault (StateM World) Unit)).run.run w

/-- The paths of the **files** of a module, and those where they are staged. -/
def imagePaths (path : Path) : List Path :=
  [path, symbolsPath path, stagingPath path, stagingPath (symbolsPath path)]

/-- **Saving a module** in a world is saving it on the disk that its tree shows. -/
theorem save_eq {w : World} {d : Disk} {path : Path} (shows : w.tree.Shows located (imagePaths path) d)
    (ready : d.refusals = []) (readSymbols writeSymbols : Bool) (module : Module) :
    (w.save readSymbols writeSymbols module path).1 = (d.save readSymbols writeSymbols module path).1
      ∧ (w.save readSymbols writeSymbols module path).2.tree.Shows located (imagePaths path)
        (d.save readSymbols writeSymbols module path).2
      ∧ SameElsewhere located (imagePaths path) w.tree (w.save readSymbols writeSymbols module path).2.tree := by
  have ran : w.save readSymbols writeSymbols module path = _ :=
    saveImage_run_recording writeSymbols module path w
  rw [ran, Disk.save_eq]
  cases made : imageFiles writeSymbols module path with
  | error fault => exact ⟨rfl, shows, fun _ _ => rfl⟩
  | ok files =>
    have known : ∀ file ∈ files, file.1 = path ∨ file.1 = symbolsPath path := by
      obtain ⟨image, rfl | ⟨symbols, rfl⟩⟩ := imageFiles_eq_ok made
      · simp
      · simp
    have simulates : Simulates located (imagePaths path) (writeAll files) (writeAll files) := by
      refine simulates_writeAll (fun file mem => ?_) fun file mem => ?_
      · rcases known file mem with same | same <;> simp [imagePaths, same]
      · rcases known file mem with same | same <;> simp [imagePaths, same]
    -- The record changes the journal alone.
    obtain ⟨same, shows', -, kept⟩ := simulates
      ((Journal.record ⟨.info, "Writing module " ++ path.text⟩ : StateM World Unit).run w).2 d shows ready
    exact ⟨congrArg (·.mapError Fault.ofFileError) same, shows', kept⟩

/-- **A failed save** leaves in a world what it leaves on the disk that the tree shows, and everything else as it
was. -/
theorem failedSave_of_save {w w' : World} {path : Path} {readSymbols writeSymbols : Bool} {module : Module}
    {fault : Fault} (reaches : ∀ p ∈ imagePaths path, w.tree.Reaches p (located p.components))
    (distinct : ((imagePaths path).map (located ·.components)).Nodup)
    (failed : w.save readSymbols writeSymbols module path = (.error fault, w')) :
    ∃ calls d', Disk.FailedSave writeSymbols module path (w.tree.shown located) calls d'
      ∧ w'.tree.Shows located (imagePaths path) d'
      ∧ SameElsewhere located (imagePaths path) w.tree w'.tree := by
  have apart : ∀ p ∈ imagePaths path, ∀ q ∈ imagePaths path,
      located p.components = located q.components → p.components = q.components :=
    fun p here q there same => congrArg Path.components (List.inj_on_of_nodup_map distinct here there same)
  have places : ((imagePaths path).map Path.components).Nodup := by
    refine List.Nodup.of_map located ?_
    rwa [List.map_map]
  obtain ⟨same, shows, kept⟩ := save_eq (FileTree.shows_shown reaches apart) rfl readSymbols writeSymbols module
  rw [failed] at same shows kept
  obtain ⟨calls, save⟩ := Disk.failedSave_of_save places (Prod.ext same.symm rfl)
  exact ⟨calls, _, save, shows, kept⟩

end World

end Hotpatch
