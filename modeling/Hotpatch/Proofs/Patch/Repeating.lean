import Hotpatch.Proofs.Image.Normal
import Hotpatch.Proofs.Patch.Keeping

/-! # Instrumenting again

Modules are instrumented any number of times, and written to images and read again in between. The
marker of patched modules is what makes the first success the last one.

* **`Module.Reloads`** — the module that is read from the image of another one.
* **`Module.Lives`** — what happens to a module, one event after the other.
* **`Module.Stays`** — a module is as another one was, or as that is read from its image.
* **`Lives.stays`** — nothing else happens to a module that carries the marker.
* **`Lives.selects_nothing`** — while methods are not instrumented, nothing new gets selected.
* **`Module.instrumented_once`** — both together, after any life of a module. -/

namespace Hotpatch

open Bounded (Fits)

namespace Module

/-! ## (1) Lives -/

/-- A module **reloads** as another one if that is read from its image, no length in it being too
large and its code naming fewer than 2²⁴ different strings, types and methods. -/
structure Reloads (m m' : Module) : Prop where
  fits : Fits m
  strings : m.operands.strings.dedup.length < 16777216
  types : m.operands.types.dedup.length < 16777216
  methods : m.operands.methods.dedup.length < 16777216
  exists_image : ∃ bytes image rest, m.write = .ok bytes
    ∧ ModuleImage.read bytes = .ok (image, rest) ∧ m' = image.module

/-- An **event** in the life of a module. -/
inductive Event where
  /-- It was tried to instrument the module with these markers. -/
  | tried (markers : MarkerNames) (result : Except Failure Outcome)
  /-- The module was written to an image, and read from it again. -/
  | reloaded
deriving DecidableEq

/-- A module **lives** through events and becomes another one. Whatever markers and registries it is
instrumented with, patched modules are known by the same marker. -/
inductive Lives (injected : String) : Module → List Event → Module → Prop where
  | refl (m : Module) : m.Lives injected [] m
  | instrument {m m' : Module} {markers : MarkerNames} {registry : PatchRegistry}
    {events : List Event} (same : markers.injected = injected)
    (rest : (m.instrument markers registry).module.Lives injected events m') :
    m.Lives injected (.tried markers (m.instrument markers registry).result :: events) m'
  | reload {m reloaded m' : Module} {events : List Event} (reloads : m.Reloads reloaded)
    (rest : reloaded.Lives injected events m') : m.Lives injected (.reloaded :: events) m'

variable {m m₁ m₂ : Module} {injected : String} {events : List Event} {markers : MarkerNames}
  {registry : PatchRegistry}

/-! ## (2) Reloading -/

/-- **A module reloads as it is imaged**, and what is read has settled bodies. -/
theorem Reloads.eq_imaged (reloads : m.Reloads m₁) (wf : m.WellFormed) :
    m₁ = m.imaged.module ∧ ModuleImage.read.Yields m.imaged := by
  obtain ⟨fits, strings, types, methods, bytes, image, rest, written, read, rfl⟩ := reloads
  have small := TokenTable.small_extend_empty strings types methods
  have reads := (m.reads_of_write wf fits small written).alone
  obtain ⟨rfl, -⟩ := Prod.mk.inj (Except.ok.inj (read.symm.trans reads))
  exact ⟨rfl, _, _, reads⟩

/-- **A module that fits can be reloaded** if it can be written. -/
theorem reloads_imaged {bytes : List UInt8} (wf : m.WellFormed) (fits : Fits m)
    (strings : m.operands.strings.dedup.length < 16777216)
    (types : m.operands.types.dedup.length < 16777216)
    (methods : m.operands.methods.dedup.length < 16777216) (written : m.write = .ok bytes) :
    m.Reloads m.imaged.module := by
  have small := TokenTable.small_extend_empty strings types methods
  have reads := (m.reads_of_write wf fits small written).alone
  exact ⟨fits, strings, types, methods, bytes, m.imaged, [], written, reads, rfl⟩

/-- The bodies of a module that is read are canonical, and it has no debug data. -/
theorem canonical_of_yields {image : ModuleImage} (yields : ModuleImage.read.Yields image) :
    (∀ b ∈ image.module.bodies, b.Canonical) ∧ image.module.document? = none
      ∧ ∀ b ∈ image.module.bodies, b.points = [] := by
  obtain ⟨-, noDocument, tokens, fresh⟩ := ModuleImage.fresh_of_read yields
  exact ⟨fun b mem => (fresh b mem).settled.toCanonical, noDocument,
    fun b mem => (fresh b mem).noPoints⟩

/-- A module that reloads has well-formed bodies afterwards. -/
theorem Reloads.wellFormed (reloads : m.Reloads m₁) (wf : m.WellFormed) : m₁.WellFormed := by
  obtain ⟨rfl, yields⟩ := reloads.eq_imaged wf
  exact fun b mem => ((canonical_of_yields yields).1 b mem).wellFormed

/-- **The invariant of the bodies is kept** through all events. -/
theorem Lives.wellFormed (lives : m.Lives injected events m₁) (wf : m.WellFormed) :
    m₁.WellFormed := by
  induction lives with
  | refl => exact wf
  | instrument _ _ ih => exact ih (wf.instrument _ _)
  | reload reloads _ ih => exact ih (reloads.wellFormed wf)

/-! ## (3) Marked modules -/

/-- A module **stays** as another one: it is that one, or as that is read from its image. -/
def Stays (m m₁ : Module) : Prop :=
  m₁ = m ∨ m₁ = m.imaged.module ∧ ModuleImage.read.Yields m.imaged

/-- What stays is still marked. -/
theorem Stays.hasMarker (stays : m.Stays m₁) (marked : m.hasMarker injected = true) :
    m₁.hasMarker injected = true := by
  rcases stays with rfl | ⟨rfl, -⟩
  · exact marked
  · exact marked

/-- **Reloading again changes nothing**: an image of what was read from an image has the same module. -/
theorem Stays.reload (stays : m.Stays m₁) (wf : m.WellFormed) (reloads : m₁.Reloads m₂) :
    m.Stays m₂ := by
  rcases stays with rfl | ⟨rfl, yields⟩
  · exact .inr (reloads.eq_imaged wf)
  · obtain ⟨canonical, noDocument, noPoints⟩ := canonical_of_yields yields
    obtain ⟨rfl, -⟩ := reloads.eq_imaged fun b mem => (canonical b mem).wellFormed
    exact .inr ⟨imaged_eq_self canonical noDocument noPoints, yields⟩

/-- **A marked module stays as it is** through all events, and it is found to be instrumented already
whenever that is tried. -/
theorem Lives.stays {d : Module} (lives : m.Lives injected events m₁) (wf : d.WellFormed)
    (marked : d.hasMarker injected = true) (stays : d.Stays m) :
    d.Stays m₁ ∧ ∀ event ∈ events, event = .reloaded
      ∨ ∃ markers, event = .tried markers (.ok .alreadyInstrumented) := by
  induction lives with
  | refl => exact ⟨stays, nofun⟩
  | @instrument m m' markers registry events same _ ih =>
    obtain ⟨result, module⟩ : (m.instrument markers registry).result = .ok .alreadyInstrumented
        ∧ (m.instrument markers registry).module = m :=
      instrument_of_hasMarker (same ▸ stays.hasMarker marked)
    rw [module] at ih
    obtain ⟨later, others⟩ := ih stays
    exact ⟨later, List.forall_mem_cons.mpr ⟨.inr ⟨markers, by rw [result]⟩, others⟩⟩
  | reload reloads _ ih =>
    obtain ⟨later, others⟩ := ih (stays.reload wf reloads)
    exact ⟨later, List.forall_mem_cons.mpr ⟨.inl rfl, others⟩⟩

/-- A module in which methods were instrumented carries the marker. -/
theorem hasMarker_of_instrumented (wf : m.WellFormed) {names : List String}
    (done : (m.instrument markers registry).result = .ok (.instrumented names)) :
    (m.instrument markers registry).module.hasMarker markers.injected = true := by
  obtain ⟨-, -, -, module⟩ := exists_of_instrumented wf done
  rw [module, patched, sign_eq, Module.hasMarker, List.contains_iff_mem]
  exact List.mem_append_right _ (List.mem_singleton_self _)

/-! ## (4) Modules in which nothing is selected -/

/-- The result is **unchanged** just if the marker is missing and nothing is selected. -/
theorem instrument_eq_unchanged_iff : (m.instrument markers registry).result = .ok .unchanged
    ↔ m.hasMarker markers.injected = false ∧ m.selected markers = [] := by
  refine ⟨fun done => ?_, fun ⟨unmarked, nothing⟩ => (instrument_of_selected_eq_nil unmarked nothing).1⟩
  cases unmarked : m.hasMarker markers.injected with
  | true => cases done.symm.trans (instrument_of_hasMarker unmarked).1
  | false =>
    by_contra selects
    have nonempty : m.selected markers ≠ [] := fun nothing => selects ⟨rfl, nothing⟩
    -- What is selected is patched, or fails to be.
    cases spliced : (m.sweep (markers.onIncluded (spliceMethod registry))).failure? with
    | some failure => cases done.symm.trans (instrument_of_splice_eq_some unmarked nonempty spliced).1
    | none =>
      have result := (instrument_of_splice_eq_none unmarked nonempty spliced rfl).1
      split at result
      · cases done.symm.trans result
      · cases done.symm.trans result

/-- **Nothing new gets selected** in a module, and it does not get the marker, through events in which
no methods are instrumented. -/
theorem Lives.selects_nothing (lives : m.Lives injected events m₁) (wf : m.WellFormed)
    (without : ∀ event ∈ events, ∀ markers names, event ≠ .tried markers (.ok (.instrumented names)))
    (unmarked : m.hasMarker injected = false) (nothing : m.selected markers = []) :
    m₁.hasMarker injected = false ∧ m₁.selected markers = [] := by
  induction lives with
  | refl => exact ⟨unmarked, nothing⟩
  | @instrument m m' tried registry events same _ ih =>
    obtain ⟨first, others⟩ := List.forall_mem_cons.mp without
    obtain ⟨outline, kept⟩ := outline_instrument wf tried registry
    have markersKept := kept fun names result => first tried names (by rw [result])
    refine ih (wf.instrument _ _) others ?_ (selected_eq_nil_of_outline outline.symm nothing)
    rw [Module.hasMarker, markersKept]
    exact unmarked
  | reload reloads _ ih =>
    obtain ⟨-, others⟩ := List.forall_mem_cons.mp without
    obtain ⟨rfl, -⟩ := reloads.eq_imaged wf
    exact ih (reloads.wellFormed wf) others unmarked
      (selected_eq_nil_of_outline (outline_imaged _).symm nothing)

/-! ## (5) Once and no more -/

/-- **Methods are instrumented once.** After any life of a module whose bodies are well formed, let it
be instrumented. If methods were, then through any events that follow the module stays what it is then,
but that reading it from an image renumbers its bodies and leaves out its debug data; it is found to be
instrumented already each time, whatever the markers and the registry, and that changes nothing. If
nothing was selected, the module is as it was, and as long as no methods are instrumented with other
markers nothing will be selected by these and nothing changed. -/
theorem instrumented_once (wf : m.WellFormed) (lived : m.Lives injected events m₁)
    (same : markers.injected = injected) (registry : PatchRegistry) :
    let done := m₁.instrument markers registry
    (∀ names, done.result = .ok (.instrumented names) →
      ∀ later m₂, done.module.Lives injected later m₂ →
        (m₂ = done.module ∨ m₂ = { done.module.mapBodies fun b => { b.renumber with points := [] } with
          document? := none })
        ∧ (∀ event ∈ later, event = .reloaded
          ∨ ∃ markers, event = .tried markers (.ok .alreadyInstrumented))
        ∧ ∀ markers registry, markers.injected = injected →
          (m₂.instrument markers registry).result = .ok .alreadyInstrumented
            ∧ (m₂.instrument markers registry).module = m₂)
      ∧ (done.result = .ok .unchanged → done.module = m₁
        ∧ ∀ later m₂, m₁.Lives injected later m₂ →
          (∀ event ∈ later, ∀ markers names, event ≠ .tried markers (.ok (.instrumented names))) →
          ∀ registry, (m₂.instrument markers registry).result = .ok .unchanged
            ∧ (m₂.instrument markers registry).module = m₂) := by
  dsimp only
  have wfLived := lived.wellFormed wf
  refine ⟨fun names result later m₂ lives => ?_, fun result => ?_⟩
  · have marked : (m₁.instrument markers registry).module.hasMarker injected = true :=
      same ▸ hasMarker_of_instrumented wfLived result
    obtain ⟨stays, all⟩ := lives.stays (wfLived.instrument markers registry) marked (.inl rfl)
    refine ⟨stays.imp id (·.1), all, fun markers' registry' same' => ?_⟩
    exact instrument_of_hasMarker (same' ▸ stays.hasMarker marked)
  · obtain ⟨unmarked, nothing⟩ := instrument_eq_unchanged_iff.mp result
    refine ⟨(instrument_of_selected_eq_nil unmarked nothing).2, fun later m₂ lives without registry' => ?_⟩
    obtain ⟨still, none⟩ := lives.selects_nothing wfLived without (same ▸ unmarked) nothing
    exact instrument_of_selected_eq_nil (same ▸ still) none

/-- A module with one method, which is marked. -/
def visited : Module :=
  { name := "Demo"
    references := ["Core"]
    markers := []
    types := [⟨"Demo", "Loop", .visible, [], [{
      name := "go"
      attributes := ⟨0⟩
      parameters := []
      returnType := .builtin .void
      markers := ["Hotfix"]
      body? := some {
        maxStack := 8
        initLocals := false
        locals := []
        points := []
        code := [⟨⟨0⟩, 0, .plain .nop⟩, ⟨⟨1⟩, 1, .branch .short .always ⟨0⟩⟩] } }]⟩]
    document? := none }

/-- The module is reloaded, nothing is selected in it by one marker, and its method is instrumented with
another marker. From then on it is left alone. -/
theorem instrumented_once_visited :
    let strict : MarkerNames := { MarkerNames.standard with instrument := "Urgent" }
    let registry := PatchRegistry.standard "Hotfix" "Registry"
    let done := visited.instrument .standard registry
    visited.WellFormed
      ∧ visited.Lives "HotfixInjected" [.reloaded, .tried strict (.ok .unchanged)] visited
      ∧ done.result = .ok (.instrumented ["Demo.Loop::go"])
      ∧ ∀ later m₂, done.module.Lives "HotfixInjected" later m₂ →
        (m₂ = done.module ∨ m₂ = { done.module.mapBodies fun b => { b.renumber with points := [] } with
          document? := none })
        ∧ (m₂.instrument strict registry).result = .ok .alreadyInstrumented
        ∧ (m₂.instrument strict registry).module = m₂ := by
  intro strict registry done
  have wf : visited.WellFormed := by
    intro b mem
    obtain rfl := List.mem_singleton.mp mem
    exact ⟨by decide, by decide⟩
  have fits : Fits visited := by
    simp [Fits, visited, TypeSig.Fits, pointed, sites]
    decide
  obtain ⟨bytes, written⟩ := (exists_write_iff wf).mpr (show visited.fault? = none by decide)
  have reloads := reloads_imaged wf fits (by decide) (by decide) (by decide) written
  rw [show visited.imaged.module = visited by decide] at reloads
  have unchanged : (visited.instrument strict registry).result = .ok .unchanged := by decide +kernel
  have module : (visited.instrument strict registry).module = visited := by decide +kernel
  have tried : visited.Lives "HotfixInjected" [.tried strict (.ok .unchanged)] visited := by
    have rest : visited.Lives "HotfixInjected" [] visited := .refl visited
    rw [← unchanged]
    exact .instrument rfl (module.symm ▸ rest)
  have lives := Lives.reload reloads tried
  have result : done.result = .ok (.instrumented ["Demo.Loop::go"]) := by decide +kernel
  refine ⟨wf, lives, result, fun later m₂ after => ?_⟩
  obtain ⟨stays, -, already⟩ :=
    (@instrumented_once _ _ _ _ .standard wf lives rfl registry).1 _ result later m₂ after
  exact ⟨stays, already strict registry rfl⟩

end Module

end Hotpatch
