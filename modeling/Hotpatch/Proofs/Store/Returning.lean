import Hotpatch.Proofs.Image.NormalForm
import Hotpatch.Proofs.Patch.Keeping
import Hotpatch.Proofs.Store.Neighbours
import Hotpatch.Proofs.Store.Saving

/-! # Loading what was saved

A module that was saved in the store of images on a disk is loaded from there, renumbered, unless it has
no symbols and lies next to those of another.

* **`Disk.load_eq`**, **`Disk.load_eq_ok_iff`** — loading from a disk, and the modules that it holds.
* **`item?_of_save_of_symbols`**, **`item?_of_save`** — what saving leaves at the places of a module.
* **`Module.Bare`** — debug data only with symbols; it holds of what is loaded, and instrumenting keeps it.
* **`Disk.load_of_save_iff`** — the way there and back. -/

namespace Hotpatch

open Bounded (Fits)

variable {d d' d'' : Disk} {path : Path} {resolver : Resolver} {module : Module} {image : ModuleImage}
  {place : Place} {bytes : List UInt8}

/-! ## (1) Loading -/

namespace Disk

/-- **Load** a module from the image store on a disk. -/
def load (d : Disk) (readSymbols writeSymbols : Bool) (resolver : Resolver) (path : Path) :
    Except Fault Module × Disk :=
  (((imageStore readSymbols writeSymbols).load resolver path : ExceptT Fault (StateM Disk) Module)).run.run d

/-- Add the **symbols** on a disk to an image, if there are some. -/
def readSymbols (d : Disk) (image : ModuleImage) (path : Path) : Except Fault ModuleImage :=
  match d.read path.components with
  | .ok bytes =>
    match image.readSymbols bytes with
    | (read, .ok _) => .ok read
    | (_, .error fault) => .error fault
  | .error .notFound => .ok image
  | .error error => .error (.io error)

/-- **Read an image** from a disk, with its symbols. -/
def readImage (d : Disk) (path : Path) : Except Fault ModuleImage := do
  let bytes ← (d.read path.components).mapError Fault.ofFileError
  let (image, _) ← ModuleImage.read bytes
  d.readSymbols image (symbolsPath path)

/-- Loading symbols, on a disk. -/
@[simp] theorem loadSymbols_run (image : ModuleImage) (path : Path) (d : Disk) :
    (loadSymbols image path : ExceptT Fault (StateM Disk) ModuleImage).run.run d
      = (d.readSymbols image path, d) := by
  rw [loadSymbols, readSymbols]
  have read : (liftM (FileSystem.read path : StateM Disk _) : ExceptT Fault (StateM Disk) _).run.run d
    = (.ok (d.read path.components), d) := rfl
  rw [Action.bind_of_ok read]
  cases d.read path.components with
  | error error => cases error <;> rfl
  | ok bytes =>
    dsimp only
    have silent : (liftM (Journal.record ⟨.debug, "Reading symbols " ++ path.text⟩ : StateM Disk Unit) :
        ExceptT Fault (StateM Disk) Unit).run.run d = (.ok (), d) := rfl
    rw [Action.bind_of_ok silent]
    rcases image.readSymbols bytes with ⟨read, _ | _⟩ <;> rfl

/-- **Resolve** the references of a module at a path, on a disk. -/
def resolve (d : Disk) (resolver : Resolver) (path : Path) (references : List String) :
    Except Fault (List Path) × Disk :=
  (resolver.resolveAll path.parent? references : ExceptT Fault (StateM Disk) (List Path)).run.run d

/-- **Loading** is reading an image and resolving what it refers to. -/
theorem load_eq (d : Disk) (writeSymbols : Bool) (resolver : Resolver) (path : Path) :
    d.load true writeSymbols resolver path
      = match d.readImage path with
        | .ok image =>
          (d.resolve resolver path image.module.references).map (·.map fun _ => image.module) id
        | .error fault => (.error fault, d) := by
  change (loadImage true resolver path : ExceptT Fault (StateM Disk) Module).run.run d = _
  rw [loadImage, readImage]
  have start : (liftM (Journal.record ⟨.info, "Reading module " ++ path.text⟩ : StateM Disk Unit) :
      ExceptT Fault (StateM Disk) Unit).run.run d = (.ok (), d) := rfl
  have file : (liftFile (FileSystem.read path) : ExceptT Fault (StateM Disk) _).run.run d
      = ((d.read path.components).mapError Fault.ofFileError, d) := liftFile_run _ d
  rw [Action.bind_of_ok start]
  cases contents : (d.read path.components).mapError Fault.ofFileError with
  | error fault =>
    rw [contents] at file
    exact Action.bind_of_error file
  | ok bytes =>
    rw [contents] at file
    rw [Action.bind_of_ok file, Attempt.bind_of_ok rfl]
    cases read : ModuleImage.read bytes with
    | error fault => rfl
    | ok whole =>
      obtain ⟨bare, rest⟩ := whole
      have decoded : (liftM (ModuleImage.read bytes) : ExceptT Fault (StateM Disk) _).run.run d
        = (.ok (bare, rest), d) := by rw [read]; rfl
      rw [← read, Action.bind_of_ok decoded, Attempt.bind_of_ok read]
      dsimp only
      rw [if_pos rfl]
      have symbols := loadSymbols_run bare (symbolsPath path) d
      cases result : d.readSymbols bare (symbolsPath path) with
      | error fault =>
        rw [result] at symbols
        exact Action.bind_of_error symbols
      | ok image =>
        rw [result] at symbols
        rw [Action.bind_of_ok symbols]
        dsimp only
        generalize resolved : d.resolve resolver path image.module.references = ending
        obtain ⟨_ | found, after⟩ := ending
        · exact Action.bind_of_error resolved
        · rw [Action.bind_of_ok resolved, Journal.recordAll_eq_pure fun _ => rfl]
          rfl

/-- A disk **holds** a module at a path: it is what its files are read as, those of its image and of its
symbols if there are any. -/
def Holds (d : Disk) (path : Path) (symbols? : Option (List UInt8)) (module : Module) : Prop :=
  ∃ bytes, d.item? path.components = some (.file bytes)
    ∧ d.item? (symbolsPath path).components = symbols?.map .file
    ∧ Module.ofFiles bytes symbols? = .ok module

/-- All references of a module at a path **resolve** on a disk. -/
def Resolves (d : Disk) (resolver : Resolver) (path : Path) (references : List String) : Prop :=
  ∃ found, (d.resolve resolver path references).1 = .ok found

/-- Reading an image reads a file, and one with symbols if it is there. -/
theorem exists_of_readImage (read : d.readImage path = .ok image) : ∃ bytes symbols?,
    d.item? path.components = some (.file bytes)
      ∧ d.item? (symbolsPath path).components = Option.map .file symbols? := by
  obtain ⟨bytes, file, behind⟩ := Attempt.bind_eq_ok_iff.mp read
  obtain ⟨⟨bare, rest⟩, -, symbols⟩ := Attempt.bind_eq_ok_iff.mp behind
  have here : d.read path.components = .ok bytes := by
    cases contents : d.read path.components with
    | error error =>
      rw [contents] at file
      cases file
    | ok other =>
      rw [contents] at file
      exact congrArg Except.ok (Except.ok.inj file)
  dsimp only at symbols
  rw [readSymbols] at symbols
  split at symbols
  · next contents there =>
    exact ⟨bytes, some contents, read_eq_ok_iff.mp here, read_eq_ok_iff.mp there⟩
  · next there => exact ⟨bytes, none, read_eq_ok_iff.mp here, read_eq_notFound_iff.mp there⟩
  · cases symbols

/-- **Reading an image** is reading the files of its module. -/
theorem map_readImage {symbols? : Option (List UInt8)}
    (here : d.item? path.components = some (.file bytes))
    (there : d.item? (symbolsPath path).components = symbols?.map .file) :
    (d.readImage path).map (·.module) = Module.ofFiles bytes symbols? := by
  rw [readImage, read_eq_ok_iff.mpr here, Module.ofFiles]
  change Except.map _ (ModuleImage.read bytes >>= _) = _
  cases ModuleImage.read bytes with
  | error fault => rfl
  | ok whole =>
    obtain ⟨bare, rest⟩ := whole
    refine Eq.trans ?_ (Attempt.bind_of_ok rfl).symm
    change Except.map _ (d.readSymbols bare (symbolsPath path)) = _
    rw [readSymbols]
    cases symbols? with
    | none =>
      rw [read_eq_notFound_iff.mpr there]
      rfl
    | some symbols =>
      rw [read_eq_ok_iff.mpr there]
      dsimp only
      rcases bare.readSymbols symbols with ⟨read, _ | left⟩
      · rfl
      · rfl

/-- An image is read if the disk holds its module. -/
theorem exists_readImage_iff : (∃ image, d.readImage path = .ok image ∧ image.module = module)
    ↔ ∃ symbols?, d.Holds path symbols? module := by
  constructor
  · rintro ⟨image, read, rfl⟩
    obtain ⟨bytes, symbols?, here, there⟩ := exists_of_readImage read
    refine ⟨symbols?, bytes, here, there, ?_⟩
    rw [← map_readImage here there, read]
    rfl
  · rintro ⟨symbols?, bytes, here, there, made⟩
    rw [← map_readImage here there] at made
    obtain ⟨image, read, same⟩ := Attempt.map_eq_ok_iff.mp made
    exact ⟨image, read, same⟩

/-- **A module is loaded** if the disk holds it and its references resolve. -/
theorem load_eq_ok_iff {writeSymbols : Bool} :
    (d.load true writeSymbols resolver path).1 = .ok module
      ↔ (∃ symbols?, d.Holds path symbols? module) ∧ d.Resolves resolver path module.references := by
  rw [load_eq, ← exists_readImage_iff]
  cases d.readImage path with
  | error fault => simp
  | ok image =>
    constructor
    · intro loaded
      change Except.map (fun _ => image.module) (d.resolve resolver path image.module.references).1
        = .ok module at loaded
      cases resolved : (d.resolve resolver path image.module.references).1 with
      | error fault =>
        rw [resolved] at loaded
        cases loaded
      | ok found =>
        rw [resolved] at loaded
        obtain rfl : image.module = module := Except.ok.inj loaded
        exact ⟨⟨image, rfl, rfl⟩, found, resolved⟩
    · rintro ⟨⟨_, same, rfl⟩, found, resolved⟩
      obtain rfl := Except.ok.inj same
      exact congrArg (Except.map fun _ => image.module) resolved

end Disk

/-! ## (2) What saving leaves -/

section Saved

variable {staged placed all : List Path} {files : List (Path × List UInt8)} {pairs : List (Path × Path)}
  {staging : Path}

/-- Files are all staged if the first is, and then the others. -/
theorem stageAll_eq_ok
    (done : (stageAll staged ((path, bytes) :: files) : StateM Disk _).run d = (.ok all, d')) :
    ∃ d₁, d.write (stagingPath path).components bytes = (.ok (), d₁)
      ∧ (stageAll (staged ++ [stagingPath path]) files : StateM Disk _).run d₁ = (.ok all, d') := by
  rw [stageAll_cons, Disk.run_write] at done
  generalize d.write (stagingPath path).components bytes = ending at done ⊢
  obtain ⟨_ | _, d₁⟩ := ending
  · cases done
  · exact ⟨d₁, rfl, done⟩

/-- Files are all moved if the first is, and then the others. -/
theorem moveAll_eq_ok
    (done : (moveAll staged placed ((staging, path) :: pairs) : StateM Disk _).run d = (.ok (), d')) :
    ∃ d₁, d.rename staging.components path.components = (.ok (), d₁)
      ∧ (moveAll staged (placed ++ [path]) pairs : StateM Disk _).run d₁ = (.ok (), d') := by
  rw [moveAll_cons fun _ => rfl, Disk.run_rename] at done
  generalize d.rename staging.components path.components = ending at done ⊢
  obtain ⟨_ | _, d₁⟩ := ending
  · cases done
  · exact ⟨d₁, rfl, done⟩

/-- **One file** that is written is at its place, and what is neither there nor where it was staged stays.
-/
theorem item?_of_writeAll_singleton
    (done : (writeAll [(path, bytes)] : StateM Disk _).run d = (.ok (), d')) :
    d'.item? path.components = some (.file bytes)
      ∧ ∀ place, place ≠ path.components → place ≠ (stagingPath path).components →
        d'.item? place = d.item? place := by
  rw [writeAll_run] at done
  split at done
  · next all between first =>
    obtain ⟨d₁, written, rest⟩ := stageAll_eq_ok first
    obtain rfl : [stagingPath path] = all := Except.ok.inj (congrArg Prod.fst rest)
    obtain rfl : d₁ = between := congrArg Prod.snd rest
    obtain ⟨d₂, renamed, rest⟩ := moveAll_eq_ok done
    obtain rfl : d₂ = d' := congrArg Prod.snd rest
    refine ⟨(Disk.item?_of_rename renamed).trans (Disk.item?_of_write written),
      fun place notPath notStaging => ?_⟩
    exact (Disk.item?_rename_of_ne renamed notStaging notPath).trans
      (Disk.item?_write_of_ne written notStaging)
  · cases done

/-- **Two files** that are written are at their places, if neither is staged where the other is or will
be. -/
theorem item?_of_writeAll_pair {other : Path} {more : List UInt8}
    (apart : path.components ≠ other.components)
    (otherPlace : (stagingPath path).components ≠ other.components)
    (otherStaging : (stagingPath path).components ≠ (stagingPath other).components)
    (done : (writeAll [(path, bytes), (other, more)] : StateM Disk _).run d = (.ok (), d')) :
    d'.item? path.components = some (.file bytes)
      ∧ d'.item? other.components = some (.file more) := by
  rw [writeAll_run] at done
  split at done
  · next all between first =>
    obtain ⟨d₁, written, rest⟩ := stageAll_eq_ok first
    obtain ⟨d₂, writtenOther, rest⟩ := stageAll_eq_ok rest
    obtain rfl : [stagingPath path, stagingPath other] = all := Except.ok.inj (congrArg Prod.fst rest)
    obtain rfl : d₂ = between := congrArg Prod.snd rest
    obtain ⟨d₃, renamedOther, rest⟩ := moveAll_eq_ok done
    obtain ⟨d₄, renamed, rest⟩ := moveAll_eq_ok rest
    obtain rfl : d₄ = d' := congrArg Prod.snd rest
    -- The first file waits where it is staged, and then the other stays at its place.
    have waits := (Disk.item?_rename_of_ne renamedOther otherStaging otherPlace).trans
      (Disk.item?_write_of_ne writtenOther otherStaging)
    have stays := Disk.item?_rename_of_ne renamed otherPlace.symm apart.symm
    constructor
    · rw [Disk.item?_of_rename renamed, waits, Disk.item?_of_write written]
    · rw [stays, Disk.item?_of_rename renamedOther, Disk.item?_of_write writtenOther]
  · cases done

end Saved

namespace Disk

/-- Saving succeeds if the files can be made and written. -/
theorem exists_of_save (saved : d.save true true module path = (.ok (), d')) :
    ∃ files, imageFiles true module path = .ok files
      ∧ (writeAll files : StateM Disk _).run d = (.ok (), d') := by
  rw [save_eq] at saved
  split at saved
  · next files made =>
    refine ⟨files, made, ?_⟩
    generalize (writeAll files : StateM Disk _).run d = ending at saved ⊢
    obtain ⟨_ | _, after⟩ := ending
    · cases congrArg Prod.fst saved
    · obtain rfl : after = d' := congrArg Prod.snd saved
      rfl
  · cases congrArg Prod.fst saved

/-- **A module without symbols** is at its place when it was saved, and the place of its symbols is as it
was. -/
theorem item?_of_save (apart : path.components ≠ (symbolsPath path).components)
    (without : module.document? = none) (saved : d.save true true module path = (.ok (), d')) :
    ∃ bytes, module.write = .ok bytes ∧ d'.item? path.components = some (.file bytes)
      ∧ d'.item? (symbolsPath path).components = d.item? (symbolsPath path).components := by
  obtain ⟨files, made, written⟩ := exists_of_save saved
  obtain ⟨bytes, image, rest⟩ := Attempt.bind_eq_ok_iff.mp made
  rw [without, if_neg (by decide)] at rest
  obtain rfl := Except.ok.inj rest
  obtain ⟨here, others⟩ := item?_of_writeAll_singleton written
  exact ⟨bytes, image, here, others _ apart.symm (stagingPath_apart apart).1.symm⟩

/-- **A module with symbols** is at its place when it was saved, and so are they. -/
theorem item?_of_save_of_symbols (apart : path.components ≠ (symbolsPath path).components)
    (has : module.document?.isSome) (saved : d.save true true module path = (.ok (), d')) :
    ∃ bytes symbols, module.write = .ok bytes ∧ module.writeSymbols = .ok symbols
      ∧ d'.item? path.components = some (.file bytes)
      ∧ d'.item? (symbolsPath path).components = some (.file symbols) := by
  obtain ⟨files, made, written⟩ := exists_of_save saved
  obtain ⟨bytes, symbols, image, wrote, rfl⟩ := imageFiles_of_symbols has made
  obtain ⟨otherPlace, otherStaging⟩ := stagingPath_apart apart
  exact ⟨bytes, symbols, image, wrote, item?_of_writeAll_pair apart otherPlace otherStaging written⟩

end Disk

/-! ## (3) There and back -/

namespace Module

/-- A module with **debug data only with symbols**: without a document, it has no sequence points. -/
def Bare (m : Module) : Prop :=
  m.document? = none → ∀ b ∈ m.bodies, b.points = []

/-- What files say has debug data only with symbols. -/
theorem Keeps.bare {symbols? : Option (List UInt8)} (keeps : module.Keeps symbols?) : module.Bare := by
  intro without
  cases symbols? with
  | none => exact keeps.2
  | some _ =>
    rw [Keeps, without] at keeps
    cases keeps

/-- **Instrumenting** adds no debug data. -/
theorem Bare.instrument (bare : module.Bare) (wf : module.WellFormed) (markers : MarkerNames)
    (registry : PatchRegistry) : (module.instrument markers registry).module.Bare := by
  obtain ⟨f, way, ending⟩ := exists_of_instrument wf markers registry
  have changed : (module.mapSites f).Bare := by
    intro without b mem
    obtain ⟨s, inModule, has⟩ := mem_bodies_mapSites.mp mem
    obtain ⟨h, same, points⟩ := (way s).exists_eq_mapBody
    rw [same] at has
    obtain ⟨before, had, rfl⟩ := Option.map_eq_some_iff.mp has
    rw [points]
    exact bare without before (mem_bodies_iff.mpr ⟨s, inModule, had⟩)
  rcases ending with ⟨-, module⟩ | ⟨-, module⟩
  · exact module ▸ changed
  · rw [module, sign_eq]
    exact changed

/-- A module with one body that has no debug data. -/
def quiet : Module :=
  { name := "Demo"
    references := []
    markers := []
    types := [⟨"Demo", "Loop", .visible, [], [{
      name := "spin"
      attributes := ⟨0⟩
      parameters := []
      returnType := .builtin .void
      markers := []
      body? := some {
        maxStack := 8
        initLocals := false
        locals := []
        points := []
        code := [⟨⟨0⟩, 0, .ldstr "a"⟩, ⟨⟨1⟩, 5, .plain .pop⟩, ⟨⟨2⟩, 6, .plain .ret⟩] } }]⟩]
    document? := none }

end Module

namespace Disk

/-- **A disk holds what was saved** on it, unless it has no symbols and something else is at their place. -/
theorem holds_of_save (wf : module.WellFormed) (bare : module.Bare) (fits : Fits module)
    (small : (TokenTable.empty.extend module.operands).Small)
    (apart : path.components ≠ (symbolsPath path).components)
    (saved : d.save true true module path = (.ok (), d')) :
    (∃ symbols?, d'.Holds path symbols? module.renumber)
      ↔ module.document?.isSome ∨ d.item? (symbolsPath path).components = none := by
  cases document : module.document? with
  | some text =>
    have has : module.document?.isSome := by rw [document]; rfl
    obtain ⟨bytes, symbols, written, writtenSymbols, here, there⟩ :=
      item?_of_save_of_symbols apart has saved
    refine iff_of_true ⟨some symbols, bytes, here, there, ?_⟩ (.inl rfl)
    refine Module.ofFiles_of_keeps wf fits small has written fun symbols' same => ?_
    rw [← Option.some.inj same, writtenSymbols]
  | none =>
    obtain ⟨bytes, written, here, there⟩ := item?_of_save apart document saved
    have nothing : d'.Holds path none module.renumber ↔ d.item? (symbolsPath path).components = none := by
      refine ⟨fun ⟨_, _, empty, _⟩ => there.symm.trans empty, fun empty => ?_⟩
      exact ⟨bytes, here, there.trans empty,
        Module.ofFiles_of_keeps wf fits small ⟨document, bare document⟩ written nofun⟩
    simp only [Option.isSome_none, Bool.false_eq_true, false_or, ← nothing]
    refine ⟨fun ⟨symbols?, held⟩ => ?_, fun held => ⟨none, held⟩⟩
    cases symbols? with
    | none => exact held
    | some symbols =>
      -- Whatever lies there is read as symbols, and the module had none.
      obtain ⟨_, -, -, read⟩ := held
      have keeps : module.document?.isSome := Module.keeps_of_ofFiles read
      rw [document] at keeps
      cases keeps

/-- **There and back**: a module that was loaded and instrumented, however that ended, is loaded again from
where it was saved, renumbered, just if it has symbols or nothing was at their place before. Its lengths
fit, its code names fewer than 2²⁴ different strings, types and methods, and its references resolve. -/
theorem load_of_save_iff {d₀ : Disk} {resolver₀ : Resolver} {path₀ : Path} {loaded : Module}
    {markers : MarkerNames} {registry : PatchRegistry}
    (load : (d₀.load true true resolver₀ path₀).1 = .ok loaded)
    (instrumented : module = (loaded.instrument markers registry).module) (fits : Fits module)
    (strings : module.operands.strings.dedup.length < 16777216)
    (types : module.operands.types.dedup.length < 16777216)
    (methods : module.operands.methods.dedup.length < 16777216)
    (apart : path.components ≠ (symbolsPath path).components)
    (saved : d.save true true module path = (.ok (), d'))
    (resolves : d'.Resolves resolver path module.references) :
    (d'.load true true resolver path).1 = .ok module.renumber
      ↔ module.document?.isSome ∨ d.item? (symbolsPath path).components = none := by
  obtain ⟨⟨symbols?, bytes, -, -, read⟩, -⟩ := load_eq_ok_iff.mp load
  have wf : loaded.WellFormed := fun b mem => (Module.settled_of_ofFiles read b mem).wellFormed
  subst instrumented
  rw [load_eq_ok_iff, ← holds_of_save (wf.instrument markers registry)
    ((Module.keeps_of_ofFiles read).bare.instrument wf markers registry) fits
    (TokenTable.small_extend_empty strings types methods) apart saved]
  exact and_iff_left resolves

/-- A disk with a module without symbols, and symbols that were left next to another place. -/
def littered : Disk :=
  .ofItems [([.name "a.ilm"], .file (Module.quiet.write.toOption.getD [])),
    ([.name "c.ilpdb"],
      .file (({ Module.quiet with document? := some "old.cs" }.writeSymbols).toOption.getD []))]

/-- The lengths of the module fit. -/
theorem fits_quiet : Fits Module.quiet := by
  simp [Fits, Module.quiet, TypeSig.Fits, Module.pointed, Module.sites]
  decide

/-- **Instrumenting it** changes nothing, as it has no marker. -/
theorem instrument_quiet :
    (Module.quiet.instrument .standard (.standard "Hotfix" "Hotfix.PatchRegistry")).module = .quiet := by
  decide +kernel

/-- Where nothing lies next to it, the module comes back. -/
theorem load_of_save_iff_littered :
    ∃ d', littered.save true true .quiet ⟨"b.ilm"⟩ = (.ok (), d')
      ∧ (d'.load true true ⟨[]⟩ ⟨"b.ilm"⟩).1 = .ok Module.quiet.renumber := by
  obtain ⟨d', saved⟩ : ∃ d', littered.save true true .quiet ⟨"b.ilm"⟩ = (.ok (), d') :=
    ⟨_, Prod.ext (by decide +kernel) rfl⟩
  have load : (littered.load true true ⟨[]⟩ ⟨"a.ilm"⟩).1 = .ok .quiet := by decide +kernel
  have resolves : d'.Resolves ⟨[]⟩ ⟨"b.ilm"⟩ Module.quiet.references := ⟨[], rfl⟩
  refine ⟨d', saved, (load_of_save_iff load instrument_quiet.symm fits_quiet (by decide) (by decide)
    (by decide) (by decide) saved resolves).mpr (.inr ?_)⟩
  decide +kernel

/-- Where symbols were left, the module that was loaded, instrumented and saved without any gets these. -/
theorem load_of_save_stale :
    (littered.load true true ⟨[]⟩ ⟨"a.ilm"⟩).1 = .ok .quiet
      ∧ (Module.quiet.instrument .standard (.standard "Hotfix" "Hotfix.PatchRegistry")).module = .quiet
      ∧ Fits Module.quiet
      ∧ (littered.save true true .quiet ⟨"c.ilm"⟩).1 = .ok ()
      ∧ (littered.save true true .quiet ⟨"c.ilm"⟩).2.Resolves ⟨[]⟩ ⟨"c.ilm"⟩ Module.quiet.references
      ∧ ((littered.save true true .quiet ⟨"c.ilm"⟩).2.load true true ⟨[]⟩ ⟨"c.ilm"⟩).1
        = .ok { Module.quiet with document? := some "old.cs" }
      ∧ Module.quiet.renumber.document? = none :=
  ⟨by decide +kernel, instrument_quiet, fits_quiet, by decide +kernel, ⟨[], rfl⟩, by decide +kernel,
    by decide +kernel⟩

end Disk

end Hotpatch
