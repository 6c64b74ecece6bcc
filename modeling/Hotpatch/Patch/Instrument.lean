import Hotpatch.Code.Encoding
import Hotpatch.Patch.Selection
import Hotpatch.Patch.Splice

/-! # Instrumenting modules

Preambles for all selected methods of a module.

* **`Trial`** — what came of an attempt: the value after it, what it reported, and its failure.
* **`Trial.sweep`** — one attempt on each member of a list, up to the first that fails.
* **`Module.sweep`** — one attempt on each method of a module, in the order of declaration.
* **`Module.instrument`** — the preambles are spliced into all selected methods first; after that
  every patched body is laid out and encoded once, to make sure that it can be written.

A failure leaves the module as far as it was changed. -/

namespace Hotpatch

/-! ## (1) Attempts -/

/-- A **trial** of a change. -/
structure Trial (α : Type) where
  after : α
  records : List Record
  failure? : Option Failure

namespace Trial

/-- Nothing is tried, and nothing changes. -/
def skip (value : α) : Trial α :=
  ⟨value, [], none⟩

/-- **Sweep** a list: try every member in order, and leave those behind the first failure alone. -/
def sweep (step : α → Trial α) : List α → Trial (List α)
  | [] => skip []
  | value :: rest =>
    let tried := step value
    match tried.failure? with
    | some failure => ⟨tried.after :: rest, tried.records, some failure⟩
    | none =>
      let others := sweep step rest
      ⟨tried.after :: others.after, tried.records ++ others.records, others.failure?⟩

/-- The same trial, seen as one of a larger value. -/
def map (f : α → β) (t : Trial α) : Trial β :=
  ⟨f t.after, t.records, t.failure?⟩

end Trial

/-- **Sweep** the methods of a module. -/
def Module.sweep (m : Module) (step : TypeDef → MethodDef → Trial MethodDef) : Trial Module :=
  (Trial.sweep (fun owner =>
    (Trial.sweep (step owner) owner.methods).map fun methods => { owner with methods })
    m.types).map fun types => { m with types }

/-! ## (2) Steps on a method -/

/-- **Splice** the preamble of a method into its body. -/
def spliceMethod (registry : PatchRegistry) (owner : TypeDef) (method : MethodDef) :
    Trial MethodDef :=
  let failure (stage : Stage) (fault : Fault) : Failure :=
    .method owner.fullName method.name stage fault
  match method.body? with
  | none => .skip method
  | some body =>
    match body.first? with
    | none => ⟨method, [], some (failure .synthesized .emptyBody)⟩
    | some first =>
      let target := MethodTarget.ofMethod owner method
      match Preamble.build target registry first with
      | .error fault => ⟨method, [], some (failure .synthesized fault)⟩
      | .ok preamble =>
        match body.splice preamble with
        | (body, .error fault) =>
          ⟨{ method with body? := some body }, [preamble.record target],
            some (failure .spliced fault)⟩
        | (body, .ok spliced) =>
          ⟨{ method with body? := some body },
            [preamble.record target,
              ⟨.debug, "Spliced " ++ toString spliced.inserted ++ " instruction(s) into "
                ++ owner.fullName ++ "::" ++ method.name⟩],
            none⟩

/-- **Settle** a method: recompute its offsets, and see that its code can be encoded. -/
def settleMethod (owner : TypeDef) (method : MethodDef) : Trial MethodDef :=
  match method.body? with
  | none => .skip method
  | some body =>
    let settled := body.recomputeOffsets
    ⟨{ method with body? := some settled }, [],
      match settled.encode .empty with
      | .ok _ => none
      | .error fault => some (.method owner.fullName method.name .serialized fault)⟩

/-- A step for the methods that are **included**; the others are skipped. -/
def MarkerNames.onIncluded (markers : MarkerNames) (step : TypeDef → MethodDef → Trial MethodDef)
    (owner : TypeDef) (method : MethodDef) : Trial MethodDef :=
  if markers.decide owner method = .included then step owner method else .skip method

/-! ## (3) Modules -/

/-- The **outcome** for a module. -/
inductive Outcome where
  /-- These methods, by their site names, have preambles now. -/
  | instrumented (methods : List String)
  /-- No method was selected. -/
  | unchanged
  /-- The module carries the marker of patched modules. -/
  | alreadyInstrumented
deriving Repr, DecidableEq, Inhabited

/-- What came of **instrumenting** a module. -/
structure Instrumented where
  module : Module
  records : List Record
  result : Except Failure Outcome

/-- The **record of an anomaly**. -/
def anomalyRecord (markers : MarkerNames) (site : Site) : Record :=
  ⟨.warn, site.name ++ " is marked '" ++ markers.ignore ++ "' but " ++ site.owner.fullName
    ++ " is not marked '" ++ markers.instrumentAll ++ "' (method left alone)"⟩

/-- **Sign** a patched module: it refers to the registry, and carries the marker. -/
def Module.sign (m : Module) (markers : MarkerNames) (registry : PatchRegistry) : Module :=
  let referring := (m.addReference registry.module).2
  { referring with markers := referring.markers ++ [markers.injected] }

/-- **Instrument** the selected methods of a module. -/
def Module.instrument (m : Module) (markers : MarkerNames) (registry : PatchRegistry) :
    Instrumented :=
  if m.hasMarker markers.injected then
    ⟨m, [⟨.info, "Module " ++ m.name ++ " is already instrumented"⟩], .ok .alreadyInstrumented⟩
  else
    let selection := m.select markers
    let warnings := selection.anomalies.map (anomalyRecord markers)
    if selection.methods.isEmpty then
      ⟨m, warnings ++ [⟨.info, "No methods selected in module " ++ m.name⟩], .ok .unchanged⟩
    else
      let spliced := m.sweep (markers.onIncluded (spliceMethod registry))
      match spliced.failure? with
      | some failure => ⟨spliced.after, warnings ++ spliced.records, .error failure⟩
      | none =>
        let settled := spliced.after.sweep (markers.onIncluded settleMethod)
        let records := warnings ++ spliced.records ++ settled.records
        match settled.failure? with
        | some failure => ⟨settled.after, records, .error failure⟩
        | none =>
          let names := selection.methods.map Site.name
          ⟨settled.after.sign markers registry,
            records ++ [⟨.info, "Instrumented " ++ toString names.length
              ++ " method(s) in module " ++ m.name⟩],
            .ok (.instrumented names)⟩

end Hotpatch
