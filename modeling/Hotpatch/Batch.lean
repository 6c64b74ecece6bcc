import Hotpatch.Patch.Instrument
import Hotpatch.Store.ModuleStore

/-! # Batches

Patching module files one after the other. A module that fails is reported, and the others are
still processed.

* **`Settings`** — what to do.
* **`Batch.start`** — a batch, if the registry is valid.
* **`Batch.outputPath`** — where the patched module goes.
* **`Batch.runModule`**, **`Batch.run`** — one module, and all of them.
* **`Report`** — what became of each. -/

namespace Hotpatch

/-- The **settings** of a batch. -/
structure Settings where
  /-- Where referenced modules are looked for, in order. -/
  searchDirectories : List Path
  /-- The modules to patch, in order. -/
  inputs : List Path
  /-- Where patched modules go, under their own file names. -/
  outputDirectory : Path
  markers : MarkerNames
  registry : PatchRegistry
  readSymbols : Bool
  writeSymbols : Bool
deriving Repr, DecidableEq, Inhabited

/-- The **report** on a batch: one entry for each input, in order. -/
structure Report where
  outcomes : List (Path × Except Failure Outcome)

namespace Report

/-- The **failures**, with the inputs they happened to. -/
def failures (r : Report) : List (Path × Failure) :=
  r.outcomes.filterMap fun (path, outcome) =>
    match outcome with
    | .ok _ => none
    | .error failure => some (path, failure)

/-- **Success**: nothing failed. -/
def isSuccess (r : Report) : Bool :=
  r.failures.isEmpty

/-- **Number of modules** that were patched and written. -/
def instrumentedCount (r : Report) : Nat :=
  r.outcomes.countP fun entry =>
    match entry.2 with
    | .ok (.instrumented _) => true
    | _ => false

end Report

/-- A **batch** that may run. -/
structure Batch (m : Type → Type) where
  settings : Settings
  resolver : Resolver
  store : ModuleStore m

namespace Batch

variable {m : Type → Type} [Monad m] [Journal m]

/-- **Start** a batch. The registry has to be valid. -/
def start (settings : Settings) (store : ModuleStore m) : ExceptT Failure m (Batch m) := do
  (settings.registry.validate : Except Failure Unit)
  let resolver ← (Resolver.ofDirectories settings.searchDirectories : m Resolver)
  return ⟨settings, resolver, store⟩

/-- **Output path** of an input: its file name in the output directory, which must not be the input
itself. -/
def outputPath (b : Batch m) (input : Path) : ExceptT Failure m Path := do
  match input.fileName? with
  | none => throw (.missingFileName input)
  | some name =>
    let output := b.settings.outputDirectory.join name
    if ← (b.store.sameFile input output : m Bool) then throw (.outputOverwritesInput input)
    return output

/-- **Run a module**: load it, patch it, and save it if it was changed. -/
def runModule (b : Batch m) (input : Path) : ExceptT Failure m Outcome := do
  let output ← b.outputPath input
  let module ← (b.store.load b.resolver input).adapt (.load input)
  let instrumented := module.instrument b.settings.markers b.settings.registry
  Journal.recordAll (m := m) instrumented.records
  match instrumented.result with
  | .ok (.instrumented methods) =>
    Journal.recordAll (m := m) (methods.map fun name => ⟨.debug, "Instrumented " ++ name⟩)
    (b.store.save instrumented.module output).adapt (.write output)
    return .instrumented methods
  | .ok outcome => return outcome
  | .error failure => throw failure

/-- **Run an input** to its outcome, and report a failure. -/
def runInput (b : Batch m) (input : Path) : m (Path × Except Failure Outcome) := do
  let outcome ← (b.runModule input).run
  match outcome with
  | .ok _ => pure ()
  | .error failure => Journal.record ⟨.error, failure.message⟩
  return (input, outcome)

/-- **Run** the batch. -/
def run (b : Batch m) : m Report := do
  return ⟨← b.settings.inputs.mapM b.runInput⟩

end Batch

end Hotpatch
