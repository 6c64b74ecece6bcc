import Hotpatch.Proofs.Files.FragileDisk
import Hotpatch.Proofs.Store.Saving

/-! # Saving on a disk that fails

What a save leaves when any of its calls fails, or the disk stops with it, and at every moment in between:
the image gets its place last.

* **`FragileDisk.save`** — saving a module in the store of images on a fragile disk.
* **`FragileDisk.changesOnly_discard`**, **`FragileDisk.stageAll_spec`**, **`FragileDisk.moveAll_spec`** —
  what each round changes, and what it leaves if it succeeds.
* **`FragileDisk.writeAll_spec`** — what both rounds do: the first file gets its place last.
* **`FragileDisk.save_image_last`** — the same for a module and its symbols. -/

namespace Hotpatch

namespace FragileDisk

variable {paths staged placed : List Path} {files : List (Path × List UInt8)} {place : Place}

/-! ## (1) Rounds -/

/-- **Discarding** changes only the places of the paths. -/
theorem changesOnly_discard (paths : List Path) (d : FragileDisk) :
    d.ChangesOnly (paths.map Path.components) ((discard paths : StateM FragileDisk Unit).run d).2 := by
  induction paths generalizing d with
  | nil => exact .refl d _
  | cons path rest ih =>
    rw [discard_cons, run_remove]
    exact ((changesOnly_remove d path.components).mono (by simp)).trans ((ih _).mono (by simp))

/-- **Staging** changes only places where files are staged. If it succeeds, each file is there as a whole. -/
theorem stageAll_spec (files : List (Path × List UInt8)) (staged : List Path) (d : FragileDisk)
    (apart : (files.map stagingPlace).Nodup) :
    match (stageAll staged files : StateM FragileDisk _).run d with
    | (.ok all, d') => all = staged ++ files.map (stagingPath ·.1)
      ∧ d.ChangesOnly (files.map stagingPlace) d'
      ∧ ∀ file ∈ files, d'.item? (stagingPlace file) = some (.file file.2)
    | (.error _, d') => d.ChangesOnly (staged.map Path.components ++ files.map stagingPlace) d' := by
  induction files generalizing staged d with
  | nil => exact ⟨(List.append_nil _).symm, .refl d _, nofun⟩
  | cons file rest ih =>
    obtain ⟨path, bytes⟩ := file
    obtain ⟨notAmong, apart⟩ := List.nodup_cons.mp apart
    rw [stageAll_cons, run_write]
    have first := changesOnly_write d (stagingPath path).components bytes
    cases ending : d.write (stagingPath path).components bytes with
    | mk result written =>
      rw [ending] at first
      cases result with
      | error error =>
        refine (first.mono ?_).trans ((changesOnly_discard _ written).mono ?_)
        · simp [stagingPlace]
        · simp [stagingPlace]
      | ok _ =>
        have others := ih (staged ++ [stagingPath path]) written apart
        dsimp only
        split at others
        · next all after ran =>
          obtain ⟨rfl, changes, there⟩ := others
          rw [ran]
          refine ⟨List.append_assoc _ _ _, (first.mono ?_).trans (changes.mono ?_),
            List.forall_mem_cons.mpr ⟨?_, there⟩⟩
          · simp [stagingPlace]
          · exact List.subset_cons_self _ _
          · exact (changes _ notAmong).trans (item?_of_write ending)
        · next error after ran =>
          rw [ran]
          refine (first.mono ?_).trans (others.mono ?_)
          · simp [stagingPlace]
          · simp [stagingPlace]

/-- **Moving** changes only places where files are staged and to which they are moved. If it succeeds, each
file is at its place; otherwise the last of them was not moved. -/
theorem moveAll_spec (files : List (Path × List UInt8)) (staged placed : List Path) (d : FragileDisk)
    (apart : (files.map stagingPlace ++ files.map (·.1.components)).Nodup)
    (sources : ∀ file ∈ files, d.item? (stagingPlace file) = some (.file file.2)) :
    match (moveAll staged placed (files.map fun file => (stagingPath file.1, file.1)) :
      StateM FragileDisk _).run d with
    | (.ok (), d') => d.ChangesOnly (files.map stagingPlace ++ files.map (·.1.components)) d'
      ∧ ∀ file ∈ files, d'.item? file.1.components = some (.file file.2)
    | (.error _, d') => d.ChangesOnly ((staged ++ placed).map Path.components
      ++ (files.map stagingPlace ++ files.dropLast.map (·.1.components))) d' := by
  induction files generalizing placed d with
  | nil => exact ⟨.refl d _, nofun⟩
  | cons file rest ih =>
    obtain ⟨path, bytes⟩ := file
    obtain ⟨here, others⟩ := List.forall_mem_cons.mp sources
    -- Neither the source nor the target of the first move is among those of the others.
    obtain ⟨notTarget, apart⟩ := List.nodup_cons.mp (List.perm_middle.nodup_iff.mp apart)
    obtain ⟨notSource, apart⟩ := List.nodup_cons.mp apart
    replace notTarget := mt (List.mem_cons_of_mem _) notTarget
    rw [List.map_cons, moveAll_cons fun _ => rfl, run_rename]
    have first := changesOnly_rename d (stagingPath path).components path.components
    cases ending : d.rename (stagingPath path).components path.components with
    | mk result renamed =>
      rw [ending] at first
      cases result with
      | error error =>
        have unchanged := changesOnly_of_rename_eq_error ending
        refine (unchanged.mono (List.nil_subset _)).trans (.trans
          ((changesOnly_discard staged renamed).mono ?_) ((changesOnly_discard placed _).mono ?_))
        · simp
        · simp
      | ok _ =>
        -- The other files are still staged.
        have waiting (file) (mem : file ∈ rest) :
            renamed.item? (stagingPlace file) = some (.file file.2) := by
          have among : stagingPlace file ∈ rest.map stagingPlace ++ rest.map (·.1.components) :=
            List.mem_append_left _ (List.mem_map_of_mem mem)
          refine (first _ fun touched => ?_).trans (others file mem)
          rcases List.mem_pair.mp touched with same | same
          · exact ne_of_mem_of_not_mem among notSource same
          · exact ne_of_mem_of_not_mem among notTarget same
        have spec := ih (placed ++ [path]) renamed apart waiting
        dsimp only
        split at spec
        · next after ran =>
          obtain ⟨changes, there⟩ := spec
          rw [ran]
          refine ⟨(first.mono ?_).trans (changes.mono ?_), List.forall_mem_cons.mpr ⟨?_, there⟩⟩
          · simp [stagingPlace]
          · intro place mem
            grind
          · exact (changes _ notTarget).trans ((item?_of_rename ending).trans here)
        · next error after ran =>
          rw [ran]
          -- A move behind the first failed, so that the first is not the last.
          obtain ⟨second, more, rfl⟩ : ∃ second more, rest = second :: more := by
            cases rest with
            | nil => cases congrArg Prod.fst ran
            | cons second more => exact ⟨second, more, rfl⟩
          refine (first.mono ?_).trans (spec.mono ?_)
          · simp [stagingPlace]
          · intro place mem
            grind

/-- **Writing files** changes only where files are staged and their places. If it succeeds, each file is at
its place; otherwise **the first one is not**, as it is moved last. -/
theorem writeAll_spec (files : List (Path × List UInt8)) (d : FragileDisk)
    (apart : (files.map stagingPlace ++ files.map (·.1.components)).Nodup) :
    match (writeAll files : StateM FragileDisk _).run d with
    | (.ok (), d') => d.ChangesOnly (files.map stagingPlace ++ files.map (·.1.components)) d'
      ∧ ∀ file ∈ files, d'.item? file.1.components = some (.file file.2)
    | (.error _, d') => d.ChangesOnly (files.map stagingPlace ++ files.tail.map (·.1.components)) d' := by
  rw [writeAll_run]
  have staging := stageAll_spec files [] d (List.nodup_append.mp apart).1
  split at staging
  · next all between ran =>
    obtain ⟨rfl, changes, there⟩ := staging
    rw [ran]
    dsimp only
    rw [List.nil_append, List.zip_map', ← List.map_reverse]
    have backwards : (files.reverse.map stagingPlace ++ files.reverse.map (·.1.components)).Nodup := by
      rw [List.map_reverse, List.map_reverse]
      exact ((List.reverse_perm _).append (List.reverse_perm _)).nodup_iff.mpr apart
    have moving := moveAll_spec files.reverse (files.map (stagingPath ·.1)) [] between backwards
      fun file mem => there file (List.mem_reverse.mp mem)
    split at moving
    · next after moved =>
      obtain ⟨changesToo, placed⟩ := moving
      rw [moved]
      refine ⟨(changes.mono ?_).trans (changesToo.mono ?_),
        fun file mem => placed file (List.mem_reverse.mpr mem)⟩
      · exact List.subset_append_left _ _
      · simp
    · next error after moved =>
      rw [moved]
      refine (changes.mono ?_).trans (moving.mono ?_)
      · exact List.subset_append_left _ _
      · intro place mem
        grind [stagingPlace]
  · next error after ran =>
    rw [ran]
    exact staging.mono (List.subset_append_left _ _)

/-! ## (2) Modules -/

/-- **Save** a module in the image store on a fragile disk. -/
def save (d : FragileDisk) (readSymbols writeSymbols : Bool) (module : Module) (path : Path) :
    Except Fault Unit × FragileDisk :=
  (((imageStore readSymbols writeSymbols).save module path :
    ExceptT Fault (StateM FragileDisk) Unit)).run.run d

/-- **No module is new before its symbols are**, when a module with symbols is saved. If the save succeeds,
both files are there as a whole. If any call fails, or the disk stops at any point, the place of the
module holds what it held. No place is changed but those two and those where the files are staged. -/
theorem save_image_last {module : Module} {path : Path} (has : module.document?.isSome)
    (apart : [path.components, (symbolsPath path).components, (stagingPath path).components,
      (stagingPath (symbolsPath path)).components].Nodup)
    (d : FragileDisk) (readSymbols : Bool) :
    match d.save readSymbols true module path with
    | (ending, d') =>
      (∀ place ∉ [path.components, (symbolsPath path).components, (stagingPath path).components,
        (stagingPath (symbolsPath path)).components], d'.item? place = d.item? place)
      ∧ match ending with
        | .ok () => ∃ image symbols, module.write = .ok image ∧ module.writeSymbols = .ok symbols
          ∧ d'.item? path.components = some (.file image)
          ∧ d'.item? (symbolsPath path).components = some (.file symbols)
        | .error _ => d'.item? path.components = d.item? path.components := by
  have saving : d.save readSymbols true module path = _ :=
    saveImage_run (fun _ => rfl) true module path d
  rw [saving]
  cases made : imageFiles true module path with
  | error fault => exact ⟨fun _ _ => rfl, rfl⟩
  | ok files =>
    obtain ⟨image, symbols, written, wrote, rfl⟩ := imageFiles_of_symbols has made
    have order : ([(stagingPath path).components, (stagingPath (symbolsPath path)).components]
        ++ [path.components, (symbolsPath path).components]).Perm _ := List.perm_append_comm
    have spec := writeAll_spec [(path, image), (symbolsPath path, symbols)] d (order.nodup_iff.mpr apart)
    dsimp only
    split at spec
    · next after ran =>
      obtain ⟨keeps, there⟩ := spec
      rw [ran]
      have first := there (path, image) List.mem_cons_self
      have second := there (symbolsPath path, symbols) (List.mem_cons_of_mem _ List.mem_cons_self)
      exact ⟨fun place outside => keeps place (mt order.mem_iff.mp outside),
        image, symbols, written, wrote, first, second⟩
    · next error after ran =>
      rw [ran]
      -- Only the place of the image is not among those that may have changed.
      have keeps : ∀ place ∉ [(symbolsPath path).components, (stagingPath path).components,
          (stagingPath (symbolsPath path)).components], after.item? place = d.item? place :=
        fun place outside => spec place (mt List.perm_append_comm.mem_iff.mp outside)
      exact ⟨fun place outside => keeps place (mt (List.mem_cons_of_mem _) outside),
        keeps _ (List.nodup_cons.mp apart).1⟩

/-- A disk with a module and its symbols, and the fates of calls to come. -/
def aged (fates : List Fate) : FragileDisk :=
  ⟨(List.lookup · [([.name "a.ilm"], .file [1]), ([.name "a.ilpdb"], .file [2])]), fates, false⟩

/-- If the disk stops when only the new symbols are at their place, the old module is still at its own. If it
does not, both are new. -/
theorem save_image_last_aged :
    (∃ fault d', (aged [.ends, .ends, .ends, .stops none]).save true true ⟨"a", [], [], [], some "a.cs"⟩
        ⟨"a.ilm"⟩ = (.error fault, d')
      ∧ d'.item? [.name "a.ilm"] = some (.file [1]) ∧ d'.item? [.name "a.ilpdb"] ≠ some (.file [2]))
    ∧ ∃ d' image, (aged []).save true true ⟨"a", [], [], [], some "a.cs"⟩ ⟨"a.ilm"⟩ = (.ok (), d')
      ∧ Module.write ⟨"a", [], [], [], some "a.cs"⟩ = .ok image
      ∧ d'.item? [.name "a.ilm"] = some (.file image) := by
  have left := @save_image_last ⟨"a", [], [], [], some "a.cs"⟩ ⟨"a.ilm"⟩ rfl (by decide)
  constructor
  · obtain ⟨d', failed, changed⟩ : ∃ d', (aged [.ends, .ends, .ends, .stops none]).save true true
        ⟨"a", [], [], [], some "a.cs"⟩ ⟨"a.ilm"⟩ = (.error (.io silence), d')
        ∧ d'.item? [.name "a.ilpdb"] ≠ some (.file [2]) :=
      ⟨_, Prod.ext (by decide +kernel) rfl, by decide +kernel⟩
    have spec := left (aged [.ends, .ends, .ends, .stops none]) true
    rw [failed] at spec
    exact ⟨_, d', failed, spec.2, changed⟩
  · obtain ⟨d', saved⟩ : ∃ d', (aged []).save true true ⟨"a", [], [], [], some "a.cs"⟩ ⟨"a.ilm"⟩
        = (.ok (), d') := ⟨_, Prod.ext (by decide +kernel) rfl⟩
    have spec := left (aged []) true
    rw [saved] at spec
    obtain ⟨-, image, -, written, -, there, -⟩ := spec
    exact ⟨d', image, saved, written, there⟩

end FragileDisk

end Hotpatch
