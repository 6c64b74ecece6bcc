import Hotpatch.Batch
import Hotpatch.Proofs.Effects
import Hotpatch.Proofs.Files.Disk
import Hotpatch.Proofs.Files.Paths

/-! # Batches on a shelf

A store that is a map from places to entries, and what a batch makes of it. What becomes of an input is told
by the entry at its place, and that is not changed before the input has its turn: what a batch makes has its
place in the output directory, and an input that has its own there is refused.

* **`Shelf`**, **`Format`** — the entries at places, and how modules are read from them and written to them.
* **`Shelf.run`** — a batch with the store of a format.
* **`Settings.target`**, **`Format.attempt`** — where the patched module of an input goes, and what becomes
  of the input.
* **`Settings.target_of_inOutput`** — inputs in the output directory are refused.
* **`Shelf.made?_eq_some_iff`** — what is made of an input.
* **`Shelf.run_eq`** — the report and the shelf that a batch ends with. -/

namespace Hotpatch

/-- A **shelf**: the entries at some places. -/
structure Shelf (α : Type) where
  content? : Place → Option α

/-- A **format** of entries: how a module is read from what is at a place, and which entry is written for
it. -/
structure Format (α : Type) where
  read : Option α → Except Fault Module
  write : Module → Except Fault α

variable {α : Type} {s t : Shelf α} {format : Format α} {settings : Settings} {input : Path}
  {place : Place} {entry : α}

/-! ## (1) The store -/

namespace Shelf

/-- **Put** an entry at a place, instead of any other. -/
def put (s : Shelf α) (place : Place) (entry : α) : Shelf α :=
  ⟨Function.update s.content? place (some entry)⟩

/-- An entry that was put is at its place, and nothing else has changed. -/
@[simp, grind =] theorem content?_put (s : Shelf α) (here : Place) (entry : α) (place : Place) :
    (s.put here entry).content? place = if place = here then some entry else s.content? place :=
  Function.update_apply _ _ _ _

/-- **Put all** entries at their places, one after the other. -/
def putAll (s : Shelf α) (made : List (Place × α)) : Shelf α :=
  made.foldl (fun s m => s.put m.1 m.2) s

/-- A shelf keeps no journal. -/
instance : Journal (StateM (Shelf α)) where
  record _ := pure ()

end Shelf

/-- The **store** of a format: a module is read from what is at its path, and written there. -/
def Format.store (format : Format α) : ModuleStore (StateM (Shelf α)) where
  load _ path := do
    let found? ← (return (← get).content? path.components : StateM (Shelf α) (Option α))
    (format.read found? : Except Fault Module)
  save module path := do
    let entry ← (format.write module : Except Fault α)
    (modify fun s => s.put path.components entry : StateM (Shelf α) Unit)
  sameFile a b := return a.sameAs b

/-- **Run** a batch on a shelf. -/
def Shelf.run (s : Shelf α) (format : Format α) (settings : Settings) :
    Except Failure Report × Shelf α :=
  (do
    let batch ← Batch.start settings format.store
    (batch.run : StateM (Shelf α) Report) : ExceptT Failure (StateM (Shelf α)) Report).run.run s

/-! ## (2) One input -/

/-- The **target** of an input: its file name in the output directory, unless that is the input itself. -/
def Settings.target (settings : Settings) (input : Path) : Except Failure Path :=
  match input.fileName? with
  | none => .error (.missingFileName input)
  | some name =>
    if input.sameAs (settings.outputDirectory.join name) then .error (.outputOverwritesInput input)
    else .ok (settings.outputDirectory.join name)

/-- What is **delivered** of an instrumented module: its outcome, and, if it was changed, the entry that is
put at the output path. -/
def Format.deliver (format : Format α) (output : Path) (instrumented : Instrumented) :
    Except Failure (Outcome × Option (Place × α)) :=
  match instrumented.result with
  | .ok (.instrumented methods) => do
    let entry ← (format.write instrumented.module).mapError (.write output)
    return (.instrumented methods, some (output.components, entry))
  | .ok outcome => .ok (outcome, none)
  | .error failure => .error failure

/-- An **attempt** at an input, by what is found at its place. -/
def Format.attempt (format : Format α) (settings : Settings) (input : Path) (found? : Option α) :
    Except Failure (Outcome × Option (Place × α)) := do
  let output ← settings.target input
  let module ← (format.read found?).mapError (.load input)
  format.deliver output (module.instrument settings.markers settings.registry)

/-- The **outcome** for an input, on a shelf. -/
def Shelf.outcome (s : Shelf α) (format : Format α) (settings : Settings) (input : Path) :
    Except Failure Outcome :=
  (format.attempt settings input (s.content? input.components)).map (·.1)

/-- What is **made** of an input, on a shelf, and where it goes. -/
def Shelf.made? (s : Shelf α) (format : Format α) (settings : Settings) (input : Path) :
    Option (Place × α) :=
  (format.attempt settings input (s.content? input.components)).toOption.bind (·.2)

section Run

variable (format : Format α) (settings : Settings) (resolver : Resolver) (input : Path) (s : Shelf α)

/-- The output path of an input is its target. -/
@[simp] theorem Format.outputPath_run :
    ((⟨settings, resolver, format.store⟩ : Batch (StateM (Shelf α))).outputPath input).run.run s
      = (settings.target input, s) := by
  rw [Batch.outputPath, Settings.target]
  cases input.fileName? with
  | none => rfl
  | some name =>
    dsimp only
    have same : (liftM (format.store.sameFile input (settings.outputDirectory.join name)) :
        ExceptT Failure (StateM (Shelf α)) Bool).run.run s
      = (.ok (input.sameAs (settings.outputDirectory.join name)), s) := rfl
    rw [Action.bind_of_ok same]
    split
    · rfl
    · rfl

/-- Loading reads what is at the place. -/
@[simp] theorem Format.load_run :
    (format.store.load resolver input).run.run s = (format.read (s.content? input.components), s) := by
  change (liftM (format.read (s.content? input.components)) :
    ExceptT Fault (StateM (Shelf α)) Module).run.run s = _
  cases format.read (s.content? input.components) <;> rfl

/-- Saving puts an entry at the place, if one can be written. -/
@[simp] theorem Format.save_run (module : Module) (path : Path) :
    (format.store.save module path).run.run s
      = match format.write module with
        | .ok entry => (.ok (), s.put path.components entry)
        | .error fault => (.error fault, s) := by
  change (liftM (format.write module) >>= _ : ExceptT Fault (StateM (Shelf α)) Unit).run.run s = _
  cases format.write module <;> rfl

/-- **Running a module** is the attempt at it. -/
@[simp] theorem Format.runModule_run :
    ((⟨settings, resolver, format.store⟩ : Batch (StateM (Shelf α))).runModule input).run.run s
      = (s.outcome format settings input, s.putAll (s.made? format settings input).toList) := by
  rw [Batch.runModule, Shelf.outcome, Shelf.made?, Format.attempt,
    Action.bind_run, format.outputPath_run]
  cases settings.target input with
  | error failure => rfl
  | ok output =>
    rw [Attempt.bind_of_ok rfl]
    dsimp only
    rw [Action.bind_run, Action.adapt_run, format.load_run]
    cases format.read (s.content? input.components) with
    | error fault => rfl
    | ok module =>
      dsimp only [Prod.map, id, Except.mapError]
      rw [Attempt.bind_of_ok rfl]
      generalize module.instrument settings.markers settings.registry = instrumented
      rw [Journal.recordAll_eq_pure fun _ => rfl, liftM_pure, pure_bind]
      rcases instrumented with ⟨module, records, failure | methods | - | -⟩
      · rfl
      · dsimp only
        rw [Journal.recordAll_eq_pure fun _ => rfl, liftM_pure, pure_bind, Action.bind_run, Action.adapt_run,
          format.save_run, Format.deliver]
        cases format.write module <;> rfl
      · rfl
      · rfl

/-- **Running an input** is the attempt at it. -/
@[simp] theorem Format.runInput_run :
    ((⟨settings, resolver, format.store⟩ : Batch (StateM (Shelf α))).runInput input).run s
      = ((input, s.outcome format settings input), s.putAll (s.made? format settings input).toList) := by
  rw [Batch.runInput, StateT.run_bind, format.runModule_run]
  cases s.outcome format settings input <;> rfl

end Run

/-! ## (3) Places -/

variable {output : Path}

/-- A place **in the output directory**. -/
def Settings.InOutput (settings : Settings) (place : Place) : Prop :=
  ∃ name, place = settings.outputDirectory.components ++ [.name name]

/-- The target of an input lies **in the output directory**. -/
theorem Settings.inOutput_of_target (done : settings.target input = .ok output) :
    settings.InOutput output.components := by
  rw [target] at done
  split at done
  · cases done
  · next name named =>
    obtain ⟨-, -, isName, -⟩ := Path.exists_of_fileName? named
    split at done
    · cases done
    · obtain rfl := Except.ok.inj done
      exact ⟨name, Path.components_join settings.outputDirectory isName⟩

/-- **An input in the output directory** is its own target, and refused. -/
theorem Settings.target_of_inOutput (inside : settings.InOutput input.components) :
    settings.target input = .error (.outputOverwritesInput input) := by
  obtain ⟨name, there⟩ := inside
  have named := Path.fileName?_of_components there
  obtain ⟨-, -, isName, -⟩ := Path.exists_of_fileName? named
  have here := Path.components_join settings.outputDirectory isName
  rw [target, named]
  exact if_pos (beq_iff_eq.mpr (there.trans here.symm))

/-- **An entry is delivered** of a module that was changed, and put at the output path. -/
theorem Format.deliver_eq_ok_some_iff {instrumented : Instrumented} {outcome : Outcome} :
    format.deliver output instrumented = .ok (outcome, some (place, entry))
      ↔ ∃ methods, outcome = .instrumented methods ∧ instrumented.result = .ok (.instrumented methods)
        ∧ format.write instrumented.module = .ok entry ∧ output.components = place := by
  rw [deliver]
  rcases instrumented with ⟨module, records, failure | methods | - | -⟩
  · exact ⟨nofun, nofun⟩
  · dsimp only
    cases format.write module with
    | error fault => exact ⟨nofun, nofun⟩
    | ok entry' =>
      constructor
      · intro done
        cases done
        exact ⟨methods, rfl, rfl, rfl, rfl⟩
      · rintro ⟨_, rfl, same, written, rfl⟩
        cases same
        cases written
        rfl
  · exact ⟨nofun, nofun⟩
  · exact ⟨nofun, nofun⟩

/-- An entry is delivered of **each instrumented module**. -/
theorem Format.exists_of_deliver {instrumented : Instrumented} {methods : List String}
    {made? : Option (Place × α)}
    (done : format.deliver output instrumented = .ok (.instrumented methods, made?)) :
    ∃ place entry, made? = some (place, entry) := by
  rw [deliver] at done
  split at done
  · obtain ⟨entry, -, same⟩ := Attempt.bind_eq_ok_iff.mp done
    exact ⟨_, entry, (congrArg Prod.snd (Except.ok.inj same)).symm⟩
  · next others _ =>
    exact absurd (congrArg Prod.fst (Except.ok.inj done)) (others methods)
  · cases done

/-- **What is made** of an input is the entry of its instrumented module, and goes to its target. -/
theorem Shelf.made?_eq_some_iff : s.made? format settings input = some (place, entry)
    ↔ ∃ output module methods, settings.target input = .ok output ∧ output.components = place
      ∧ format.read (s.content? input.components) = .ok module
      ∧ (module.instrument settings.markers settings.registry).result = .ok (.instrumented methods)
      ∧ format.write (module.instrument settings.markers settings.registry).module = .ok entry
      ∧ s.outcome format settings input = .ok (.instrumented methods) := by
  have some : s.made? format settings input = some (place, entry) ↔ ∃ outcome,
      format.attempt settings input (s.content? input.components) = .ok (outcome, some (place, entry)) := by
    rw [made?]
    rcases format.attempt settings input (s.content? input.components) with _ | ⟨outcome, made?⟩
    · exact ⟨nofun, nofun⟩
    · constructor
      · intro same
        exact ⟨outcome, congrArg (fun made? => Except.ok (outcome, made?)) same⟩
      · rintro ⟨_, same⟩
        exact congrArg Prod.snd (Except.ok.inj same)
  rw [some]
  constructor
  · rintro ⟨outcome, done⟩
    have ended : s.outcome format settings input = .ok outcome := by rw [Shelf.outcome, done]; rfl
    obtain ⟨output, target, rest⟩ := Attempt.bind_eq_ok_iff.mp done
    obtain ⟨module, read, delivered⟩ := Attempt.bind_eq_ok_iff.mp rest
    obtain ⟨methods, rfl, result, written, here⟩ := Format.deliver_eq_ok_some_iff.mp delivered
    exact ⟨output, module, methods, target, here, Attempt.mapError_eq_ok_iff.mp read, result, written, ended⟩
  · rintro ⟨output, module, methods, target, here, read, result, written, -⟩
    refine ⟨.instrumented methods, ?_⟩
    rw [Format.attempt, target, Attempt.bind_of_ok rfl, read]
    exact Format.deliver_eq_ok_some_iff.mpr ⟨methods, rfl, result, written, here⟩

/-- What is made goes to a place **in the output directory**. -/
theorem Shelf.inOutput_of_made? (made : s.made? format settings input = some (place, entry)) :
    settings.InOutput place := by
  obtain ⟨output, -, -, target, rfl, -⟩ := made?_eq_some_iff.mp made
  exact Settings.inOutput_of_target target

/-- Something is made of **each input that is instrumented**. -/
theorem Shelf.exists_of_outcome {methods : List String}
    (ended : s.outcome format settings input = .ok (.instrumented methods)) :
    ∃ place entry, s.made? format settings input = some (place, entry) := by
  rw [Shelf.outcome] at ended
  rw [made?]
  cases done : format.attempt settings input (s.content? input.components) with
  | error failure =>
    rw [done] at ended
    cases ended
  | ok result =>
    obtain ⟨outcome, made?⟩ := result
    rw [done] at ended
    obtain rfl : outcome = .instrumented methods := Except.ok.inj ended
    obtain ⟨output, -, rest⟩ := Attempt.bind_eq_ok_iff.mp done
    obtain ⟨module, -, delivered⟩ := Attempt.bind_eq_ok_iff.mp rest
    obtain ⟨place, entry, rfl⟩ := Format.exists_of_deliver delivered
    exact ⟨place, entry, rfl⟩

/-- **An input in the output directory** is refused, whatever it is. -/
theorem Shelf.outcome_of_inOutput (inside : settings.InOutput input.components) :
    s.outcome format settings input = .error (.outputOverwritesInput input) := by
  rw [Shelf.outcome, Format.attempt, Settings.target_of_inOutput inside]
  rfl

/-- **An attempt reads nothing in the output directory**: it does not depend on what is there. -/
theorem Format.attempt_congr (input : Path)
    (same : ∀ place, ¬ settings.InOutput place → t.content? place = s.content? place) :
    format.attempt settings input (t.content? input.components)
      = format.attempt settings input (s.content? input.components) := by
  cases target : settings.target input with
  | error failure => rw [attempt, attempt, target]; rfl
  | ok output =>
    rw [same _ fun inside => ?_]
    rw [Settings.target_of_inOutput inside] at target
    cases target

/-! ## (4) All inputs -/

namespace Shelf

/-- **The last entry** for a place is there, or what was there if there is none. -/
theorem content?_putAll (s : Shelf α) (made : List (Place × α)) (place : Place) :
    (s.putAll made).content? place = (made.reverse.lookup place).or (s.content? place) := by
  induction made generalizing s with
  | nil => rfl
  | cons m rest ih =>
    obtain ⟨here, entry⟩ := m
    rw [List.reverse_cons, List.lookup_append, Option.or_assoc]
    refine (ih (s.put here entry)).trans (congrArg _ ?_)
    rw [content?_put, List.lookup_cons, List.lookup_nil]
    by_cases same : place = here
    · simp [same]
    · simp [same, beq_eq_false_iff_ne.mpr same]

/-- What is at a place in the end was put there, or nothing was put there. -/
theorem mem_or_notMem_of_putAll (s : Shelf α) (made : List (Place × α)) (place : Place) :
    (∃ entry, (s.putAll made).content? place = some entry ∧ (place, entry) ∈ made)
      ∨ (s.putAll made).content? place = s.content? place ∧ ∀ entry, (place, entry) ∉ made := by
  rw [content?_putAll]
  cases found : made.reverse.lookup place with
  | some entry =>
    obtain ⟨front, back, whole, -⟩ := List.lookup_eq_some_iff.mp found
    refine .inl ⟨entry, rfl, List.mem_reverse.mp ?_⟩
    exact whole ▸ List.mem_append_right _ List.mem_cons_self
  | none =>
    refine .inr ⟨rfl, fun entry mem => ?_⟩
    have := List.lookup_eq_none_iff.mp found _ (List.mem_reverse.mpr mem)
    exact absurd this (by simp)

/-- **A list of inputs** ends with the outcomes for them, and with what is made of them all: what is made of
one does not matter to the others. -/
@[simp] theorem mapM_runInput (format : Format α) (settings : Settings) (resolver : Resolver) (s : Shelf α)
    (inputs : List Path) (t : Shelf α)
    (same : ∀ place, ¬ settings.InOutput place → t.content? place = s.content? place) :
    (inputs.mapM (⟨settings, resolver, format.store⟩ : Batch (StateM (Shelf α))).runInput).run t
      = (inputs.map fun input => (input, s.outcome format settings input),
        t.putAll (inputs.filterMap (s.made? format settings))) := by
  induction inputs generalizing t with
  | nil => rfl
  | cons input rest ih =>
    have attempt := format.attempt_congr input same
    have outcome : t.outcome format settings input = s.outcome format settings input :=
      congrArg _ attempt
    have made : t.made? format settings input = s.made? format settings input := by
      rw [made?, made?, attempt]
    have kept (place : Place) (outside : ¬ settings.InOutput place) :
        (t.putAll (s.made? format settings input).toList).content? place = s.content? place := by
      cases here : s.made? format settings input with
      | none => exact same place outside
      | some m =>
        have apart : place ≠ m.1 := fun h => outside (h ▸ inOutput_of_made? here)
        exact (content?_put t m.1 m.2 place).trans ((if_neg apart).trans (same place outside))
    rw [List.mapM_cons, StateT.run_bind, format.runInput_run, outcome, made]
    refine (congrArg (Prod.map ((input, _) :: ·) id) (ih _ kept)).trans ?_
    rw [List.map_cons, List.filterMap_cons]
    cases s.made? format settings input <;> rfl

/-- A batch **starts** if the registry is valid, and that changes nothing. -/
theorem start_run (valid : settings.registry.validate = .ok ()) (s : Shelf α) (format : Format α) :
    ∃ resolver, (Batch.start settings format.store).run.run s = (.ok ⟨settings, resolver, format.store⟩, s) := by
  obtain ⟨resolver, searching⟩ : ∃ resolver,
      (Resolver.ofDirectories settings.searchDirectories : StateM (Shelf α) Resolver) = pure resolver :=
    ⟨_, List.foldlM_pure⟩
  refine ⟨resolver, ?_⟩
  rw [Batch.start, valid, searching]
  rfl

/-- **A batch ends** with the outcomes for all inputs, and with what is made of them. -/
theorem run_eq (settings : Settings) (valid : settings.registry.validate = .ok ()) (s : Shelf α)
    (format : Format α) :
    s.run format settings
      = (.ok ⟨settings.inputs.map fun input => (input, s.outcome format settings input)⟩,
        s.putAll (settings.inputs.filterMap (s.made? format settings))) := by
  obtain ⟨resolver, started⟩ := start_run valid s format
  rw [run, Action.bind_of_ok started]
  exact congrArg (Prod.map (fun outcomes => Except.ok (Report.mk outcomes)) id)
    (mapM_runInput format settings resolver s settings.inputs s fun _ _ => rfl)

end Shelf

end Hotpatch
