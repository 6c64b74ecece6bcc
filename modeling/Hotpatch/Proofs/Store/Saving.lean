import Hotpatch.Proofs.Files.Disk
import Hotpatch.Proofs.Store.Rounds

/-! # Saving on a disk

The calls by which files are staged and moved to their places, and what is left when one of them fails.

* **`Disk.save`** — saving a module in the store of images on a disk.
* **`Written`**, **`MovedTo`** — the places that were written and those that files were moved to.
* **`stageAll_spec`**, **`moveAll_spec`** — the calls of the two rounds, up to the first that fails.
* **`written_failing`**, **`movedTo_failing`**, **`frame_failing`** — what these calls change.
* **`Undoes`**, **`undoes_of_writeAll`** — what both rounds leave if they fail.
* **`Disk.FailedSave`** — the same for a module.
* **`Disk.Restored`**, **`Disk.save_of_error`** — a failed save leaves the disk as it was, unless moving the
  image fails where symbols were, or the place where they would be staged is taken. -/

namespace Hotpatch

/-! ## (1) Calls -/

/-- A place is **written** by some calls if they try to. -/
def Written (calls : List (Call × Bool)) (place : Place) : Prop :=
  ∃ done, (.write place, done) ∈ calls

/-- A file is **moved to** a place by some calls if one of them renames it so. -/
def MovedTo (calls : List (Call × Bool)) (place : Place) : Prop :=
  ∃ source, (.rename source place, true) ∈ calls

/-- Calls that only **remove** files, from the given paths. -/
def OnlyRemove (paths : List Path) (calls : List (Call × Bool)) : Prop :=
  ∀ call done, (call, done) ∈ calls → ∃ p ∈ paths, call = .remove p.components

/-- The place where a file is **staged**. -/
def stagingPlace (file : Path × List UInt8) : Place :=
  (stagingPath file.1).components

variable {d d' : Disk} {paths staged placed : List Path} {files : List (Path × List UInt8)}
  {pairs : List (Path × Path)} {error : FileError}

/-! ## (2) Discarding -/

/-- **Discarding** removes files, and none is left at the paths. -/
theorem discard_spec (paths : List Path) (d : Disk) :
    ∃ calls, d.Leads calls ((discard paths : StateM Disk Unit).run d).2
      ∧ OnlyRemove paths calls
      ∧ (∀ p ∈ paths, ((discard paths : StateM Disk Unit).run d).2.Clear p.components)
      ∧ ∀ place, d.Clear place → ((discard paths : StateM Disk Unit).run d).2.Clear place := by
  induction paths generalizing d with
  | nil => exact ⟨[], .refl d, nofun, nofun, fun _ clear => clear⟩
  | cons path rest ih =>
    obtain ⟨calls, leads, removes, cleared, stays⟩ := ih (d.remove path.components).2
    obtain ⟨here, others⟩ := d.clear_remove path.components
    have both := (d.leads_remove path.components).trans leads
    refine ⟨_, both, fun call done mem => ?_, ?_, fun place clear => stays place (others place clear)⟩
    · rcases List.mem_cons.mp mem with same | mem
      · exact ⟨path, List.mem_cons_self, (Prod.mk.inj same).1⟩
      · obtain ⟨p, inRest, same⟩ := removes call done mem
        exact ⟨p, List.mem_cons_of_mem _ inRest, same⟩
    · exact List.forall_mem_cons.mpr ⟨stays _ here, cleared⟩

/-! ## (3) Staging -/

/-- **Staging** writes the files one by one. If all writes take effect, the files are staged; otherwise
nothing is left at the paths staged before, or at those written up to the first that fails. -/
theorem stageAll_spec (files : List (Path × List UInt8)) (staged : List Path) (d : Disk) :
    match (stageAll staged files : StateM Disk _).run d with
    | (.ok all, d') => all = staged ++ files.map (stagingPath ·.1)
      ∧ d.Leads (files.map fun file => (.write (stagingPlace file), true)) d'
    | (.error _, d') => ∃ front failing back removed, files = front ++ failing :: back
      ∧ d.Leads ((front.map fun file => (.write (stagingPlace file), true))
        ++ (.write (stagingPlace failing), false) :: removed) d'
      ∧ OnlyRemove (staged ++ (front ++ [failing]).map (stagingPath ·.1)) removed
      ∧ ∀ p ∈ staged ++ (front ++ [failing]).map (stagingPath ·.1), d'.Clear p.components := by
  induction files generalizing staged d with
  | nil => exact ⟨(List.append_nil _).symm, .refl d⟩
  | cons file rest ih =>
    obtain ⟨path, bytes⟩ := file
    rw [stageAll_cons, Disk.run_write]
    have first := d.leads_write (stagingPath path).components bytes
    generalize d.write (stagingPath path).components bytes = ending at first ⊢
    obtain ⟨_ | _, written⟩ := ending
    · -- The write fails, and all that was staged is discarded.
      obtain ⟨removed, leads, removes, cleared, -⟩ :=
        discard_spec (staged ++ [stagingPath path]) written
      exact ⟨[], (path, bytes), rest, removed, rfl, first.trans leads, removes, cleared⟩
    · have others := ih (staged ++ [stagingPath path]) written
      dsimp only
      split at others
      · next all after ran =>
        obtain ⟨rfl, leads⟩ := others
        rw [ran]
        refine ⟨?_, first.trans leads⟩
        rw [List.append_assoc]
        rfl
      · next error after ran =>
        obtain ⟨front, failing, back, removed, rfl, leads, removes, cleared⟩ := others
        rw [ran]
        simp only [List.append_assoc] at removes cleared
        exact ⟨(path, bytes) :: front, failing, back, removed, rfl, first.trans leads, removes, cleared⟩

/-! ## (4) Moving -/

/-- **Moving** renames the files one by one. If a rename fails, nothing is left at the staging paths, or
at the paths that files were moved to before. -/
theorem moveAll_spec (pairs : List (Path × Path)) (staged placed : List Path) (d : Disk) :
    match (moveAll staged placed pairs : StateM Disk _).run d with
    | (.ok (), d') =>
      d.Leads (pairs.map fun pair => (.rename pair.1.components pair.2.components, true)) d'
    | (.error _, d') => ∃ front failing back removed, pairs = front ++ failing :: back
      ∧ d.Leads ((front.map fun pair => (.rename pair.1.components pair.2.components, true))
        ++ (.rename failing.1.components failing.2.components, false) :: removed) d'
      ∧ OnlyRemove (staged ++ (placed ++ front.map (·.2))) removed
      ∧ ∀ p ∈ staged ++ (placed ++ front.map (·.2)), d'.Clear p.components := by
  induction pairs generalizing placed d with
  | nil => exact .refl d
  | cons pair rest ih =>
    obtain ⟨staging, path⟩ := pair
    rw [moveAll_cons fun _ => rfl, Disk.run_rename]
    have first := d.leads_rename staging.components path.components
    generalize d.rename staging.components path.components = ending at first ⊢
    obtain ⟨_ | _, renamed⟩ := ending
    · obtain ⟨removed, leads, removes, cleared, -⟩ := discard_spec staged renamed
      obtain ⟨more, leadsMore, removesMore, clearedMore, stays⟩ :=
        discard_spec placed ((discard staged : StateM Disk Unit).run renamed).2
      refine ⟨[], (staging, path), rest, removed ++ more, rfl, first.trans (leads.trans leadsMore),
        fun call done mem => ?_, fun p mem => ?_⟩
      · rcases List.mem_append.mp mem with mem | mem
        · obtain ⟨p, inside, same⟩ := removes call done mem
          exact ⟨p, List.mem_append_left _ inside, same⟩
        · obtain ⟨p, inside, same⟩ := removesMore call done mem
          exact ⟨p, List.mem_append_right _ (List.mem_append_left _ inside), same⟩
      · rcases List.mem_append.mp mem with inside | inside
        · exact stays _ (cleared p inside)
        · exact clearedMore p (by simpa using inside)
    · have others := ih (placed ++ [path]) renamed
      dsimp only
      split at others
      · next after ran =>
        rw [ran]
        exact first.trans others
      · next error after ran =>
        obtain ⟨front, failing, back, removed, rfl, leads, removes, cleared⟩ := others
        rw [ran]
        simp only [List.append_assoc] at removes cleared
        exact ⟨(staging, path) :: front, failing, back, removed, rfl, first.trans leads, removes, cleared⟩

/-! ## (5) Both rounds -/

section Failing

variable {stagedFiles movedFiles : List (Path × List UInt8)} {last : Call}
  {removed : List (Call × Bool)} {place : Place}

/-- The calls of rounds that **fail**: files are staged, and some of them moved, until a call has no
effect, and then some are removed. -/
def failing (stagedFiles movedFiles : List (Path × List UInt8)) (last : Call)
    (removed : List (Call × Bool)) : List (Call × Bool) :=
  stagedFiles.map (fun file => (.write (stagingPlace file), true))
    ++ (movedFiles.map (fun file => (.rename (stagingPlace file) file.1.components, true))
      ++ (last, false) :: removed)

/-- Among these calls are the last one, and those before it and behind it. -/
@[simp] theorem mem_failing {call : Call} {done : Bool} :
    (call, done) ∈ failing stagedFiles movedFiles last removed
      ↔ (∃ file ∈ stagedFiles, call = .write (stagingPlace file) ∧ done = true)
        ∨ (∃ file ∈ movedFiles, call = .rename (stagingPlace file) file.1.components ∧ done = true)
        ∨ call = last ∧ done = false ∨ (call, done) ∈ removed := by
  simp [failing, eq_comm]

/-- Files are **written** where they are staged, and by the last call. -/
theorem written_failing (removes : OnlyRemove paths removed) :
    Written (failing stagedFiles movedFiles last removed) place
      ↔ place ∈ stagedFiles.map stagingPlace ∨ last = .write place := by
  rw [List.mem_map]
  constructor
  · rintro ⟨done, mem⟩
    rcases mem_failing.mp mem with ⟨file, here, same, -⟩ | ⟨file, -, same, -⟩ | ⟨same, -⟩ | mem
    · exact .inl ⟨file, here, (Call.write.inj same).symm⟩
    · cases same
    · exact .inr same.symm
    · obtain ⟨p, -, same⟩ := removes _ _ mem
      cases same
  · rintro (⟨file, here, rfl⟩ | rfl)
    · exact ⟨true, mem_failing.mpr (.inl ⟨file, here, rfl, rfl⟩)⟩
    · exact ⟨false, mem_failing.mpr (.inr (.inr (.inl ⟨rfl, rfl⟩)))⟩

/-- Files are **moved to** their places. -/
theorem movedTo_failing (removes : OnlyRemove paths removed) :
    MovedTo (failing stagedFiles movedFiles last removed) place
      ↔ place ∈ movedFiles.map (·.1.components) := by
  rw [List.mem_map]
  constructor
  · rintro ⟨source, mem⟩
    rcases mem_failing.mp mem with ⟨file, -, same, -⟩ | ⟨file, here, same, -⟩ | ⟨-, same⟩ | mem
    · cases same
    · exact ⟨file, here, (Call.rename.inj same).2.symm⟩
    · cases same
    · obtain ⟨p, -, same⟩ := removes _ _ mem
      cases same
  · rintro ⟨file, here, rfl⟩
    exact ⟨_, mem_failing.mpr (.inr (.inl ⟨file, here, rfl, rfl⟩))⟩

/-- **Only the last call fails**, but for those that remove files. -/
theorem failed_failing {call : Call} (removes : OnlyRemove paths removed)
    (notRemove : ∀ place, call ≠ .remove place) :
    (call, false) ∈ failing stagedFiles movedFiles last removed ↔ call = last := by
  constructor
  · intro mem
    rcases mem_failing.mp mem with ⟨_, -, -, same⟩ | ⟨_, -, -, same⟩ | ⟨same, -⟩ | gone
    · cases same
    · cases same
    · exact same
    · obtain ⟨p, -, same⟩ := removes _ _ gone
      exact absurd same (notRemove _)
  · rintro rfl
    exact mem_failing.mpr (.inr (.inr (.inl ⟨rfl, rfl⟩)))

/-- **What is neither written nor moved to stays**, if only what was staged is moved, and nothing else is
removed. -/
theorem frame_failing (leads : d.Leads (failing stagedFiles movedFiles last removed) d')
    (removes : OnlyRemove paths removed) (sources : ∀ file ∈ movedFiles, file ∈ stagedFiles)
    (made : ∀ p ∈ paths, Written (failing stagedFiles movedFiles last removed) p.components
      ∨ MovedTo (failing stagedFiles movedFiles last removed) p.components)
    (unwritten : ¬ Written (failing stagedFiles movedFiles last removed) place)
    (unmoved : ¬ MovedTo (failing stagedFiles movedFiles last removed) place) :
    d'.item? place = d.item? place := by
  refine leads.frame place fun call mem touched => ?_
  rcases mem_failing.mp mem with ⟨file, here, rfl, -⟩ | ⟨file, here, rfl, -⟩ | ⟨-, undone⟩ | gone
  · exact unwritten ⟨true, List.mem_singleton.mp touched ▸ mem⟩
  · rcases List.mem_cons.mp touched with rfl | touched
    · exact unwritten ((written_failing removes).mpr (.inl (List.mem_map_of_mem (sources file here))))
    · exact unmoved ⟨_, List.mem_singleton.mp touched ▸ mem⟩
  · cases undone
  · obtain ⟨p, inside, rfl⟩ := removes _ _ gone
    rw [List.mem_singleton.mp touched] at unwritten unmoved
    exact (made p inside).elim unwritten unmoved

end Failing

/-- What failed rounds of calls **undo**: no file is left where one was written, and nothing where one was
moved to. Everything else is as it was. Either staging a file failed, or all were staged and moving one
failed after those behind it had been moved. -/
structure Undoes (files : List (Path × List UInt8)) (d : Disk) (calls : List (Call × Bool)) (d' : Disk) :
    Prop where
  trace : d'.calls = d.calls ++ calls
  frame : ∀ place, ¬ Written calls place → ¬ MovedTo calls place → d'.item? place = d.item? place
  written : ∀ place, Written calls place → d'.Clear place
  moved : ∀ place, MovedTo calls place → d'.item? place = none
  cause : ∃ front file back paths removed, files = front ++ file :: back ∧ OnlyRemove paths removed
    ∧ (calls = failing front [] (.write (stagingPlace file)) removed
      ∨ calls = failing files back.reverse (.rename (stagingPlace file) file.1.components) removed)

/-- **A round of staging that fails** undoes itself. -/
theorem undoes_of_stageAll
    (failed : (stageAll [] files : StateM Disk _).run d = (.error error, d')) :
    ∃ calls, Undoes files d calls d' := by
  have spec := stageAll_spec files [] d
  rw [failed] at spec
  obtain ⟨front, file, back, removed, rfl, leads, removes, cleared⟩ := spec
  rw [List.nil_append] at removes cleared
  replace leads : d.Leads (failing front [] (.write (stagingPlace file)) removed) d' := leads
  have written {place : Place} : Written (failing front [] (.write (stagingPlace file)) removed) place
      ↔ place ∈ (front ++ [file]).map stagingPlace := by
    rw [written_failing removes]
    simp [eq_comm]
  have unmoved {place : Place} :
      ¬ MovedTo (failing front [] (.write (stagingPlace file)) removed) place := by
    rw [movedTo_failing removes]
    exact List.not_mem_nil
  refine ⟨_, leads.trace, fun place => frame_failing leads removes nofun fun p inside => ?_,
    fun place h => ?_, fun place h => absurd h unmoved, front, file, back, _, removed, rfl, removes, .inl rfl⟩
  · obtain ⟨other, here, rfl⟩ := List.mem_map.mp inside
    exact .inl (written.mpr (List.mem_map_of_mem here))
  · obtain ⟨other, here, rfl⟩ := List.mem_map.mp (written.mp h)
    exact cleared _ (List.mem_map_of_mem here)

/-- **A round of moves that fails** undoes itself and the staging before it. -/
theorem undoes_of_moveAll {between : Disk}
    (staging : d.Leads (files.map fun file => (.write (stagingPlace file), true)) between)
    (failed : (moveAll (files.map (stagingPath ·.1)) []
        ((files.map (stagingPath ·.1)).zip (files.map (·.1))).reverse : StateM Disk _).run between
      = (.error error, d')) :
    ∃ calls, Undoes files d calls d' := by
  have spec := moveAll_spec ((files.map (stagingPath ·.1)).zip (files.map (·.1))).reverse
    (files.map (stagingPath ·.1)) [] between
  rw [failed] at spec
  obtain ⟨front, pair, back, removed, pairs, leads, removes, cleared⟩ := spec
  rw [List.nil_append] at removes cleared
  -- The files that were moved are those behind the one that could not be.
  rw [List.zip_map', ← List.map_reverse] at pairs
  obtain ⟨moved, rest, reversed, rfl, behind⟩ := List.map_eq_append_iff.mp pairs
  obtain ⟨file, kept, rfl, rfl, -⟩ := List.map_eq_cons_iff.mp behind
  have whole : files = kept.reverse ++ file :: moved.reverse := by
    rw [← List.reverse_reverse files, reversed, List.reverse_append, List.reverse_cons,
      List.append_assoc, List.singleton_append]
  rw [List.map_map] at leads removes cleared
  replace leads : d.Leads
      (failing files moved (.rename (stagingPlace file) file.1.components) removed) d' :=
    staging.trans leads
  have written {place : Place} :
      Written (failing files moved (.rename (stagingPlace file) file.1.components) removed) place
        ↔ place ∈ files.map stagingPlace :=
    (written_failing removes).trans (or_iff_left nofun)
  refine ⟨_, leads.trace, fun place => frame_failing leads removes (fun f among => ?_) fun p inside => ?_,
    fun place h => ?_, fun place h => ?_, kept.reverse, file, moved.reverse, _, removed, whole, removes,
    .inr (by rw [List.reverse_reverse])⟩
  · exact List.mem_reverse.mp (reversed ▸ List.mem_append_left _ among)
  · rcases List.mem_append.mp inside with staged | placed
    · obtain ⟨f, among, rfl⟩ := List.mem_map.mp staged
      exact .inl (written.mpr (List.mem_map_of_mem among))
    · obtain ⟨f, among, rfl⟩ := List.mem_map.mp placed
      exact .inr ((movedTo_failing removes).mpr (List.mem_map_of_mem among))
  · obtain ⟨f, among, rfl⟩ := List.mem_map.mp (written.mp h)
    exact cleared _ (List.mem_append_left _ (List.mem_map_of_mem among))
  · -- A file was moved there, so that no directory was there, and none came.
    obtain ⟨source, mem⟩ := h
    obtain ⟨f, among, rfl⟩ := List.mem_map.mp ((movedTo_failing removes).mp ⟨source, mem⟩)
    refine (cleared _ (List.mem_append_right _ (List.mem_map_of_mem among))).item?_eq_none ?_
    rw [Ne, leads.directories]
    exact leads.avoids _ mem _ (List.mem_cons_of_mem _ List.mem_cons_self)

/-- **Writing files that fails** undoes itself. -/
theorem undoes_of_writeAll (failed : (writeAll files : StateM Disk _).run d = (.error error, d')) :
    ∃ calls, Undoes files d calls d' := by
  rw [writeAll_run] at failed
  split at failed
  · next staged between done =>
    have spec := stageAll_spec files [] d
    rw [done] at spec
    obtain ⟨rfl, leads⟩ := spec
    exact undoes_of_moveAll leads failed
  · next other between done =>
    obtain ⟨-, rfl⟩ := Prod.mk.inj failed
    exact undoes_of_stageAll done

/-! ## (6) Modules -/

/-- **Save** a module in the image store on a disk. -/
def Disk.save (d : Disk) (readSymbols writeSymbols : Bool) (module : Module) (path : Path) :
    Except Fault Unit × Disk :=
  (((imageStore readSymbols writeSymbols).save module path : ExceptT Fault (StateM Disk) Unit)).run.run d

variable {readSymbols writeSymbols : Bool} {module : Module} {path : Path} {fault : Fault}

/-- **Saving** is writing the files of a module, if they can be made. -/
theorem Disk.save_eq : d.save readSymbols writeSymbols module path
    = match imageFiles writeSymbols module path with
      | .ok files => ((writeAll files : StateM Disk _).run d).map (·.mapError Fault.ofFileError) id
      | .error fault => (.error fault, d) :=
  saveImage_run (fun _ => rfl) writeSymbols module path d

/-- An operation that ends in a fault ended in a file error. -/
theorem exists_of_mapError {ending : Except FileError Unit × Disk}
    (failed : ending.map (·.mapError Fault.ofFileError) id = (.error fault, d')) :
    ∃ error, ending = (.error error, d') := by
  obtain ⟨_ | _, after⟩ := ending
  · obtain rfl : after = d' := (Prod.mk.inj failed).2
    exact ⟨_, rfl⟩
  · cases (Prod.mk.inj failed).1

/-- The **files of a module** are one or two. -/
theorem imageFiles_eq_ok (made : imageFiles writeSymbols module path = .ok files) :
    ∃ image, files = [(path, image)]
      ∨ ∃ symbols, files = [(path, image), (symbolsPath path, symbols)] := by
  obtain ⟨image, -, rest⟩ := Attempt.bind_eq_ok_iff.mp made
  split at rest
  · obtain ⟨symbols, -, rest⟩ := Attempt.bind_eq_ok_iff.mp rest
    exact ⟨image, .inr ⟨symbols, (Except.ok.inj rest).symm⟩⟩
  · exact ⟨image, .inl (Except.ok.inj rest).symm⟩

/-- A module **with symbols** has both files. -/
theorem imageFiles_of_symbols (has : module.document?.isSome)
    (made : imageFiles true module path = .ok files) :
    ∃ image symbols, module.write = .ok image ∧ module.writeSymbols = .ok symbols
      ∧ files = [(path, image), (symbolsPath path, symbols)] := by
  obtain ⟨image, written, rest⟩ := Attempt.bind_eq_ok_iff.mp made
  rw [has, if_pos (by decide)] at rest
  obtain ⟨symbols, wrote, rest⟩ := Attempt.bind_eq_ok_iff.mp rest
  exact ⟨image, symbols, written, wrote, (Except.ok.inj rest).symm⟩

/-- The places where the files of a module are **staged**. -/
def stagingPlaces (path : Path) : List Place :=
  [(stagingPath path).components, (stagingPath (symbolsPath path)).components]

/-- **What a failed save leaves**, and the calls that it made. -/
structure Disk.FailedSave (writeSymbols : Bool) (module : Module) (path : Path) (d : Disk)
    (calls : List (Call × Bool)) (d' : Disk) : Prop where
  trace : d'.calls = d.calls ++ calls
  /-- Every place but that of the symbols and those where files are staged holds what it held. -/
  others : ∀ place ∉ (symbolsPath path).components :: stagingPlaces path, d'.item? place = d.item? place
  /-- If the symbols were moved to their place, nothing is left there, and otherwise what was there. -/
  symbols : MovedTo calls (symbolsPath path).components ∧ d'.item? (symbolsPath path).components = none
    ∨ ¬ MovedTo calls (symbolsPath path).components
      ∧ d'.item? (symbolsPath path).components = d.item? (symbolsPath path).components
  /-- Where a file was staged, there is none, and where none was, is what was there. -/
  staging : ∀ place ∈ stagingPlaces path, Written calls place ∧ d'.Clear place
    ∨ ¬ Written calls place ∧ d'.item? place = d.item? place
  /-- If the bytes of the files cannot be made, there are no calls. Otherwise the image is staged, symbols
  are staged unless that failed, and they had been moved exactly if moving the image failed. -/
  steps : match imageFiles writeSymbols module path with
    | .error _ => calls = []
    | .ok files => Written calls (stagingPath path).components
      ∧ (Written calls (stagingPath (symbolsPath path)).components
        ↔ symbolsPath path ∈ files.map (·.1) ∧ (.write (stagingPath path).components, false) ∉ calls)
      ∧ (MovedTo calls (symbolsPath path).components
        ↔ symbolsPath path ∈ files.map (·.1)
          ∧ (.rename (stagingPath path).components path.components, false) ∈ calls)

/-- A disk is **restored** around the files of a module: every place but those where they are staged holds
what it held, and these hold no file. -/
structure Disk.Restored (path : Path) (d d' : Disk) : Prop where
  others : ∀ place ∉ stagingPlaces path, d'.item? place = d.item? place
  staging : ∀ place ∈ stagingPlaces path, d'.Clear place

variable {calls : List (Call × Bool)}

/-- A **file of a module** with those in front of it and behind it. -/
theorem cases_of_imageFiles {front back : List (Path × List UInt8)} {file : Path × List UInt8}
    (made : imageFiles writeSymbols module path = .ok (front ++ file :: back)) :
    file.1 = path ∧ front = [] ∧ (back = [] ∨ ∃ symbols, back = [(symbolsPath path, symbols)])
      ∨ file.1 = symbolsPath path ∧ back = [] ∧ ∃ image, front = [(path, image)] := by
  obtain ⟨image, only | ⟨symbols, both⟩⟩ := imageFiles_eq_ok made
  · cases front with
    | nil =>
      obtain ⟨rfl, rfl⟩ := List.cons.inj only
      exact .inl ⟨rfl, rfl, .inl rfl⟩
    | cons first front => exact absurd (List.cons.inj only).2 (by simp)
  · cases front with
    | nil =>
      obtain ⟨rfl, rfl⟩ := List.cons.inj both
      exact .inl ⟨rfl, rfl, .inr ⟨symbols, rfl⟩⟩
    | cons first front =>
      obtain ⟨rfl, rest⟩ := List.cons.inj both
      obtain ⟨rfl, rfl, rfl⟩ : front = [] ∧ file = (symbolsPath path, symbols) ∧ back = [] := by
        simpa [List.append_eq_cons_iff] using rest
      exact .inr ⟨rfl, rfl, image, rfl⟩

/-- **What a failed save of a module calls**, if its files could be made: it writes where they are staged,
and moves at most the symbols. Only the staging of the image can keep it from staging the symbols, and these
are moved before the image is. -/
theorem Undoes.steps (undoes : Undoes files d calls d')
    (made : imageFiles writeSymbols module path = .ok files)
    (apart : (path.components :: (symbolsPath path).components :: stagingPlaces path).Nodup) :
    (∀ place, Written calls place → place ∈ stagingPlaces path)
      ∧ (∀ place, MovedTo calls place → place = (symbolsPath path).components)
      ∧ Written calls (stagingPath path).components
      ∧ (Written calls (stagingPath (symbolsPath path)).components
        ↔ symbolsPath path ∈ files.map (·.1) ∧ (.write (stagingPath path).components, false) ∉ calls)
      ∧ (MovedTo calls (symbolsPath path).components
        ↔ symbolsPath path ∈ files.map (·.1)
          ∧ (.rename (stagingPath path).components path.components, false) ∈ calls) := by
  have others : path.components ≠ (symbolsPath path).components := fun same => by simp [same] at apart
  have staging : (stagingPath path).components ≠ (stagingPath (symbolsPath path)).components :=
    fun same => by simp [stagingPlaces, same] at apart
  have notPath : symbolsPath path ≠ path := fun same => others (congrArg Path.components same.symm)
  obtain ⟨front, ⟨p, bytes⟩, back, paths, removed, rfl, removes, cause⟩ := undoes.cause
  -- Any of the files may be the one that failed, when it was staged or when it was moved.
  rcases cases_of_imageFiles made with ⟨rfl, rfl, rfl | ⟨symbols, rfl⟩⟩ | ⟨rfl, rfl, image, rfl⟩ <;>
    rcases cause with rfl | rfl
  all_goals
    simp [written_failing removes, movedTo_failing removes, failed_failing removes, stagingPlace,
      stagingPlaces, notPath, staging, staging.symm, others, eq_comm]

/-- **A save that fails** leaves what its calls left. -/
theorem Disk.failedSave_of_save
    (apart : (path.components :: (symbolsPath path).components :: stagingPlaces path).Nodup)
    (failed : d.save readSymbols writeSymbols module path = (.error fault, d')) :
    ∃ calls, FailedSave writeSymbols module path d calls d' := by
  rw [save_eq] at failed
  cases made : imageFiles writeSymbols module path with
  | error fault =>
    rw [made] at failed
    obtain rfl := (Prod.mk.inj failed).2
    exact ⟨[], (List.append_nil _).symm, fun _ _ => rfl, .inr ⟨nofun, rfl⟩, fun _ _ => .inr ⟨nofun, rfl⟩,
      by rw [made]⟩
  | ok files =>
    rw [made] at failed
    obtain ⟨error, failed⟩ := exists_of_mapError failed
    obtain ⟨calls, undoes⟩ := undoes_of_writeAll failed
    obtain ⟨written, moved, steps⟩ := undoes.steps made apart
    have unstaged : (symbolsPath path).components ∉ stagingPlaces path :=
      (List.nodup_cons.mp (List.nodup_cons.mp apart).2).1
    refine ⟨calls, undoes.trace, fun place outside => ?_, ?_, fun place staging => ?_, by rw [made]; exact steps⟩
    · obtain ⟨notSymbols, notStaging⟩ := not_or.mp (mt List.mem_cons.mpr outside)
      exact undoes.frame place (mt (written place) notStaging) (mt (moved place) notSymbols)
    · by_cases h : MovedTo calls (symbolsPath path).components
      · exact .inl ⟨h, undoes.moved _ h⟩
      · exact .inr ⟨h, undoes.frame _ (mt (written _) unstaged) h⟩
    · by_cases h : Written calls place
      · exact .inl ⟨h, undoes.written _ h⟩
      · refine .inr ⟨h, undoes.frame place h fun other => unstaged ?_⟩
        rw [← moved place other]
        exact staging

/-- **After a failed save**, the disk is restored exactly if no symbols were there when the new ones were
moved to their place, and no file was where one would have been staged but was not. -/
theorem Disk.FailedSave.restored_iff (save : FailedSave writeSymbols module path d calls d')
    (unstaged : (symbolsPath path).components ∉ stagingPlaces path) :
    Restored path d d' ↔ (MovedTo calls (symbolsPath path).components →
        d.item? (symbolsPath path).components = none)
      ∧ ∀ place ∈ stagingPlaces path, Written calls place ∨ d.Clear place := by
  constructor
  · intro restored
    refine ⟨fun moved => ?_, fun place staging => ?_⟩
    · rcases save.symbols with ⟨-, none⟩ | ⟨unmoved, -⟩
      · exact (restored.others _ unstaged).symm.trans none
      · exact absurd moved unmoved
    · rcases save.staging place staging with ⟨written, -⟩ | ⟨-, same⟩
      · exact .inl written
      · refine .inr ?_
        rw [Clear, ← same]
        exact restored.staging place staging
  · rintro ⟨wasNone, wasClear⟩
    refine ⟨fun place outside => ?_, fun place staging => ?_⟩
    · by_cases here : place = (symbolsPath path).components
      · subst here
        rcases save.symbols with ⟨moved, none⟩ | ⟨-, same⟩
        · exact none.trans (wasNone moved).symm
        · exact same
      · exact save.others place (List.not_mem_cons_of_ne_of_not_mem here outside)
    · rcases save.staging place staging with ⟨-, clear⟩ | ⟨unwritten, same⟩
      · exact clear
      · rw [Clear, same]
        exact (wasClear place staging).resolve_left unwritten

/-- **A failed save** leaves the disk as it was, but for two cases. If the new symbols had been moved to
their place and moving the image failed, nothing is left there, and symbols that were there before are lost.
If the symbols were not staged, because staging the image failed or there were none, a file that was at their
staging place stays. -/
theorem Disk.save_of_error
    (apart : (path.components :: (symbolsPath path).components :: stagingPlaces path).Nodup)
    (failed : d.save readSymbols writeSymbols module path = (.error fault, d')) :
    ∃ calls, FailedSave writeSymbols module path d calls d'
      ∧ (Restored path d d' ↔ (MovedTo calls (symbolsPath path).components →
            d.item? (symbolsPath path).components = none)
          ∧ ∀ place ∈ stagingPlaces path, Written calls place ∨ d.Clear place) := by
  obtain ⟨calls, save⟩ := failedSave_of_save apart failed
  exact ⟨calls, save, save.restored_iff (List.nodup_cons.mp (List.nodup_cons.mp apart).2).1⟩

/-- A module with symbols. -/
def Module.documented : Module :=
  ⟨"a", [], [], [], some "a.cs"⟩

/-- A disk on which a directory stands where the image of a module is to be staged, and a file where its
symbols are. -/
def Disk.occupied : Disk :=
  .ofItems [([.name ".a.ilm.ilpatch.tmp"], .directory), ([.name ".a.ilpdb.ilpatch.tmp"], .file [7])]

/-- A module with symbols is not saved there. Nothing comes to its place, but the file stays. -/
theorem Disk.save_of_error_occupied :
    ∃ d', occupied.save true true .documented ⟨"a.ilm"⟩ = (.error (.io .isDirectory), d')
      ∧ d'.item? [.name "a.ilm"] = none ∧ d'.Clear [.name ".a.ilm.ilpatch.tmp"]
      ∧ ¬ Restored ⟨"a.ilm"⟩ occupied d' := by
  obtain ⟨d', failed, called⟩ : ∃ d', occupied.save true true .documented ⟨"a.ilm"⟩
      = (.error (.io .isDirectory), d') ∧ d'.calls = [(.write [.name ".a.ilm.ilpatch.tmp"], false),
        (.remove [.name ".a.ilm.ilpatch.tmp"], false)] :=
    ⟨_, Prod.ext (by decide +kernel) rfl, by decide +kernel⟩
  obtain ⟨calls, save, restored⟩ := save_of_error (by decide) failed
  obtain rfl : d'.calls = calls := save.trace
  rw [called] at save restored
  refine ⟨d', failed, (save.others [.name "a.ilm"] (by decide)).trans (by decide), ?_, fun whole => ?_⟩
  · rcases save.staging [.name ".a.ilm.ilpatch.tmp"] (by decide) with ⟨-, clear⟩ | ⟨unwritten, -⟩
    · exact clear
    · exact absurd ⟨false, List.mem_cons_self⟩ unwritten
  · rcases (restored.mp whole).2 [.name ".a.ilpdb.ilpatch.tmp"] (by decide) with written | clear
    · exact absurd written (by simp [Written])
    · exact clear [7] (by decide)

/-- A disk on which a directory stands where a module is to be saved, and a file where its symbols are. -/
def Disk.blocked : Disk :=
  .ofItems [([.name "a.ilm"], .directory), ([.name "a.ilpdb"], .file [8])]

/-- A module with symbols is not saved there either, and **the file is lost**: the new symbols took its place,
and were removed when the image could not be moved. -/
theorem Disk.save_error_loses_symbols :
    (Path.components ⟨"a.ilm"⟩ :: (symbolsPath ⟨"a.ilm"⟩).components :: stagingPlaces ⟨"a.ilm"⟩).Nodup
      ∧ ∃ d', blocked.save true true .documented ⟨"a.ilm"⟩ = (.error (.io .isDirectory), d')
        ∧ blocked.item? (symbolsPath ⟨"a.ilm"⟩).components = some (.file [8])
        ∧ d'.item? (symbolsPath ⟨"a.ilm"⟩).components = none
        ∧ ¬ Restored ⟨"a.ilm"⟩ blocked d' := by
  have lost :
      (blocked.save true true .documented ⟨"a.ilm"⟩).2.item? (symbolsPath ⟨"a.ilm"⟩).components = none := by
    decide +kernel
  refine ⟨by decide, _, Prod.ext (by decide +kernel) rfl, by decide, lost, fun restored => ?_⟩
  have kept := restored.others (symbolsPath ⟨"a.ilm"⟩).components (by decide)
  exact absurd (kept.symm.trans lost) (by decide)

end Hotpatch
