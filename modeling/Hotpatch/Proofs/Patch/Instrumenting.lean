import Hotpatch.Proofs.Patch.Prepending
import Hotpatch.Proofs.Patch.Sweeping

/-! # Instrumenting

What instrumenting does to the methods of a module, site by site.

* **`MarkerNames.Selects`**, **`Module.selected`** — the sites whose methods get a preamble.
* **`Site.preamble`** — the preamble of a method, or why it has none.
* **`Site.prepended`**, **`Site.patched`** — the method with its preamble, before and after its offsets
  are recomputed.
* **`instrument_of_forall`** — all selected methods are patched, if all of them can be.
* **`instrument_of_first_synthesis`**, **`instrument_of_first_serialization`** — what is left behind
  the first failure of either sweep. -/

namespace Hotpatch

/-! ## (1) Selection -/

/-- A site that the markers **select**: its method is no constructor and has a body, and it is marked,
or belongs to a type that is marked as a whole and is not marked as an exception. -/
structure MarkerNames.Selects (markers : MarkerNames) (s : Site) : Prop where
  ordinary : s.method.name ≠ ".ctor" ∧ s.method.name ≠ ".cctor"
  hasBody : s.method.body?.isSome
  marked : if markers.instrumentAll ∈ s.owner.markers then markers.ignore ∉ s.method.markers
    else markers.instrument ∈ s.method.markers

variable {m : Module} {markers : MarkerNames} {registry : PatchRegistry} {s s' : Site}
  {fault : Fault} {p : Preamble}

/-- **Included** are the methods that the markers select. -/
@[simp] theorem MarkerNames.decide_eq_included_iff :
    markers.decide s.owner s.method = .included ↔ markers.Selects s := by
  have ordinary : s.method.isConstructor = true
      ↔ ¬ (s.method.name ≠ ".ctor" ∧ s.method.name ≠ ".cctor") := by
    rw [MethodDef.isConstructor, Bool.or_eq_true, beq_iff_eq, beq_iff_eq]
    tauto
  have bodiless : s.method.body?.isNone = true ↔ ¬ s.method.body?.isSome := by
    cases s.method.body? <;> simp
  rw [decide]
  split
  case isTrue constructor => exact ⟨(nomatch ·), fun h => absurd h.ordinary (ordinary.mp constructor)⟩
  case isFalse notConstructor =>
    split
    case isTrue none => exact ⟨(nomatch ·), fun h => absurd h.hasBody (bodiless.mp none)⟩
    case isFalse some =>
      have others : markers.Selects s ↔ if markers.instrumentAll ∈ s.owner.markers
          then markers.ignore ∉ s.method.markers else markers.instrument ∈ s.method.markers :=
        ⟨(·.marked), fun marked =>
          ⟨not_not.mp (mt ordinary.mpr notConstructor), not_not.mp (mt bodiless.mpr some), marked⟩⟩
      rw [others, TypeDef.hasMarker, MethodDef.hasMarker, MethodDef.hasMarker]
      simp only [List.contains_iff_mem]
      -- Four cases of markers are left, and the decision for each.
      split_ifs <;> simp_all

instance : DecidablePred markers.Selects :=
  fun _ => decidable_of_iff _ MarkerNames.decide_eq_included_iff

/-- The methods of selected sites **changed**, and the others as they are. -/
def MarkerNames.onSelected (markers : MarkerNames) (f : Site → MethodDef) (s : Site) : MethodDef :=
  if markers.Selects s then f s else s.method

/-- The **selected** sites of a module, in the order of declaration. -/
def Module.selected (m : Module) (markers : MarkerNames) : List Site :=
  m.sites.filter (markers.Selects ·)

@[simp] theorem Module.select_methods : (m.select markers).methods = m.selected markers := by
  refine List.filter_congr fun s _ => ?_
  rw [MarkerNames.decideSite, beq_eq_decide]
  exact decide_eq_decide.mpr MarkerNames.decide_eq_included_iff

@[simp] theorem Module.mem_selected : s ∈ m.selected markers ↔ s ∈ m.sites ∧ markers.Selects s := by
  rw [selected, List.mem_filter, decide_eq_true_iff]

/-- The method of a selected site is changed. -/
theorem Module.onSelected_of_mem (f : Site → MethodDef) (mem : s ∈ m.selected markers) :
    markers.onSelected f s = f s :=
  if_pos (mem_selected.mp mem).2

/-- The methods of other sites are not. -/
theorem Module.onSelected_of_not_mem (f : Site → MethodDef) (mem : s ∈ m.sites)
    (others : s ∉ m.selected markers) : markers.onSelected f s = s.method :=
  if_neg fun selects => others (mem_selected.mpr ⟨mem, selects⟩)

/-- **One selected site in the order of declaration**: those in front of it, and those behind. -/
theorem Module.selected_split {front back : List Site}
    (split : m.selected markers = front ++ s :: back) :
    s ∈ m.selected markers ∧ (∀ s' ∈ front, s'.Before s) ∧ (∀ s' ∈ back, s.Before s')
      ∧ ∀ s' ∈ m.selected markers, s'.Before s → s' ∈ front := by
  have order : (m.selected markers).Pairwise Site.Before := m.pairwise_sites.filter _
  rw [split] at order ⊢
  obtain ⟨-, behind, apart⟩ := List.pairwise_append.mp order
  have after := (List.pairwise_cons.mp behind).1
  refine ⟨List.mem_append_right _ List.mem_cons_self,
    fun s' mem => apart s' mem s List.mem_cons_self, after, fun s' mem before => ?_⟩
  rcases List.mem_append.mp mem with inFront | inBack
  · exact inFront
  · rcases List.mem_cons.mp inBack with rfl | inBack
    · exact absurd before s'.not_before_self
    · exact absurd before (after s' inBack).asymm

/-! ## (2) Steps -/

namespace Site

/-- The **failure** of a method at a stage. -/
def failure (s : Site) (stage : Stage) (fault : Fault) : Failure :=
  .method s.owner.fullName s.method.name stage fault

/-- The **preamble** of a method, which resumes the first instruction of its body. -/
def preamble (registry : PatchRegistry) (s : Site) : Except Fault Preamble :=
  match s.method.body?.bind Body.first? with
  | none => .error .emptyBody
  | some first => Preamble.build (.ofMethod s.owner s.method) registry first

/-- The method with its preamble **in front**, if it has one. -/
def prepended (registry : PatchRegistry) (s : Site) : MethodDef :=
  match s.preamble registry with
  | .ok p => s.method.mapBody (·.prepend p)
  | .error _ => s.method

/-- The method **patched** with its preamble, if it has one. -/
def patched (registry : PatchRegistry) (s : Site) : MethodDef :=
  match s.preamble registry with
  | .ok p => s.method.mapBody (·.patched p)
  | .error _ => s.method

/-- A preamble resumes the body of its method. -/
theorem exists_of_preamble (made : s.preamble registry = .ok p) : ∃ b first,
    s.method.body? = some b ∧ b.first? = some first
      ∧ Preamble.build (.ofMethod s.owner s.method) registry first = .ok p := by
  rw [preamble] at made
  split at made
  · cases made
  · next first starts =>
    obtain ⟨b, has, starts⟩ := Option.bind_eq_some_iff.mp starts
    exact ⟨b, first, has, starts, made⟩

/-- A preamble branches into the body of its method. -/
theorem targets_lt_of_preamble (made : s.preamble registry = .ok p) {b : Body}
    (has : s.method.body? = some b) (wf : b.WellFormed) :
    ∀ i ∈ p.instructions, ∀ target ∈ i.targets, target.index < b.code.length := by
  obtain ⟨other, first, same, starts, built⟩ := exists_of_preamble made
  obtain rfl := Option.some.inj (has.symm.trans same)
  exact wf.targets_lt_of_build starts built

/-- The **fault** for which the code of the patched method cannot be encoded. -/
def patchedFault? (registry : PatchRegistry) (s : Site) : Option Fault :=
  (s.patched registry).body?.bind Body.fault?

/-- Nothing but the body changes when a preamble is put in front. -/
theorem exists_prepended_eq_mapBody (registry : PatchRegistry) (s : Site) :
    ∃ h, s.prepended registry = s.method.mapBody h := by
  rw [prepended]
  split
  · exact ⟨_, rfl⟩
  · exact ⟨id, (MethodDef.mapBody_eq_self fun _ _ => rfl).symm⟩

/-- The method that is patched is the one with the preamble in front, with its offsets recomputed. -/
theorem mapBody_prepended (made : s.preamble registry = .ok p) :
    (s.prepended registry).mapBody Body.recomputeOffsets = s.patched registry := by
  simp only [prepended, patched, made, MethodDef.mapBody, Option.map_map]
  rfl

/-- A method with its preamble in front stays well formed. -/
theorem wellFormed_prepended (wf : ∀ b, s.method.body? = some b → b.WellFormed) :
    ∀ b, (s.prepended registry).body? = some b → b.WellFormed := by
  intro b has
  rw [prepended] at has
  split at has
  · next p made =>
    obtain ⟨old, had, rfl⟩ := Option.map_eq_some_iff.mp has
    exact (wf old had).prepend (targets_lt_of_preamble made had (wf old had))
  · exact wf b has

/-- A patched method stays well formed. -/
theorem wellFormed_patched (wf : ∀ b, s.method.body? = some b → b.WellFormed) :
    ∀ b, (s.patched registry).body? = some b → b.WellFormed := by
  intro b has
  rw [patched] at has
  split at has
  · next p made =>
    obtain ⟨old, had, rfl⟩ := Option.map_eq_some_iff.mp has
    exact (wf old had).patched (targets_lt_of_preamble made had (wf old had))
  · exact wf b has

end Site

/-- **Splicing** puts the preamble of a method in front, or fails because there is none. -/
theorem spliceMethod_of_isSome (registry : PatchRegistry) (has : s.method.body?.isSome)
    (wf : ∀ b, s.method.body? = some b → b.WellFormed) :
    (spliceMethod registry s.owner s.method).after = s.prepended registry
      ∧ (spliceMethod registry s.owner s.method).failure? = match s.preamble registry with
        | .ok _ => none
        | .error fault => some (s.failure .synthesized fault) := by
  obtain ⟨b, has⟩ := Option.isSome_iff_exists.mp has
  cases starts : b.first? with
  | none => simp only [spliceMethod, Site.prepended, Site.preamble, has, starts, Option.bind_some,
      Site.failure, and_self]
  | some first =>
    have made : s.preamble registry = Preamble.build (.ofMethod s.owner s.method) registry first := by
      rw [Site.preamble, has, Option.bind_some, starts]
    cases built : Preamble.build (.ofMethod s.owner s.method) registry first with
    | error fault => simp only [spliceMethod, Site.prepended, has, starts, made, built, Site.failure,
        and_self]
    | ok p =>
      have spliced := (wf b has).splice_eq_prepend starts built
      simp only [spliceMethod, Site.prepended, has, starts, made, built, spliced, and_true,
        MethodDef.mapBody, Option.map_some]

/-- **Settling** recomputes the offsets of a method, and fails if its code cannot be encoded then. -/
theorem settleMethod_eq (owner : TypeDef) {method : MethodDef}
    (wf : ∀ b, method.body? = some b → b.WellFormed) :
    (settleMethod owner method).after = method.mapBody Body.recomputeOffsets
      ∧ (settleMethod owner method).failure?
        = (method.body?.bind fun b => b.recomputeOffsets.fault?).map
          (.method owner.fullName method.name .serialized) := by
  cases has : method.body? with
  | none =>
    have same : method.mapBody Body.recomputeOffsets = method :=
      MethodDef.mapBody_eq_self fun b some => nomatch has.symm.trans some
    rw [settleMethod, has, same]
    exact ⟨rfl, rfl⟩
  | some b =>
    have decides := ((wf b has).recomputeOffsets).decides_encode
    refine ⟨by rw [settleMethod, has, MethodDef.mapBody, has]; rfl, ?_⟩
    rw [settleMethod, has, Option.bind_some]
    -- Whether a body can be encoded does not depend on the tokens there are.
    cases fault : b.recomputeOffsets.fault? with
    | none =>
      rw [fault] at decides
      obtain ⟨bytes, t, encoded⟩ := decides .empty
      simp only [encoded, Option.map_none]
    | some fault =>
      rw [fault] at decides
      simp only [decides .empty, Option.map_some]

/-- Methods that are not selected are skipped. -/
theorem onIncluded_eq {step : TypeDef → MethodDef → Trial MethodDef} :
    markers.onIncluded step s.owner s.method
      = if markers.Selects s then step s.owner s.method else .skip s.method := by
  rw [MarkerNames.onIncluded]
  exact if_congr MarkerNames.decide_eq_included_iff rfl rfl

namespace Module

/-- A sweep over the included methods without failures changes the selected ones. -/
theorem sweep_onIncluded_of_forall (step : TypeDef → MethodDef → Trial MethodDef)
    (succeeds : ∀ s ∈ m.selected markers, (step s.owner s.method).failure? = none) :
    (m.sweep (markers.onIncluded step)).failure? = none
      ∧ (m.sweep (markers.onIncluded step)).after
        = m.mapSites (markers.onSelected fun s => (step s.owner s.method).after) := by
  have all : ∀ s ∈ m.sites, (markers.onIncluded step s.owner s.method).failure? = none := by
    intro s mem
    rw [onIncluded_eq]
    split
    · next selects => exact succeeds s (mem_selected.mpr ⟨mem, selects⟩)
    · rfl
  obtain ⟨noFailure, after⟩ := sweep_of_forall all
  refine ⟨noFailure, after.trans (mapSites_congr fun s _ => ?_)⟩
  rw [onIncluded_eq, MarkerNames.onSelected]
  split <;> rfl

/-- A sweep over the included methods with a first failure changes the selected ones up to there. -/
theorem sweep_onIncluded_of_first (step : TypeDef → MethodDef → Trial MethodDef) {failure : Failure}
    (mem : s ∈ m.selected markers) (succeeds : ∀ s' ∈ m.selected markers, s'.Before s →
      (step s'.owner s'.method).failure? = none)
    (fails : (step s.owner s.method).failure? = some failure) :
    (m.sweep (markers.onIncluded step)).failure? = some failure
      ∧ (m.sweep (markers.onIncluded step)).after = m.mapSites (markers.onSelected fun s' =>
        if s.Before s' then s'.method else (step s'.owner s'.method).after) := by
  obtain ⟨inModule, selects⟩ := mem_selected.mp mem
  have before : ∀ s' ∈ m.sites, s'.Before s →
      (markers.onIncluded step s'.owner s'.method).failure? = none := by
    intro s' mem' earlier
    rw [onIncluded_eq]
    split
    · next selects' => exact succeeds s' (mem_selected.mpr ⟨mem', selects'⟩) earlier
    · rfl
  have here : (markers.onIncluded step s.owner s.method).failure? = some failure := by
    rw [onIncluded_eq, if_pos selects, fails]
  obtain ⟨failed, after⟩ := sweep_of_first inModule before here
  refine ⟨failed, after.trans (mapSites_congr fun s' _ => ?_)⟩
  rw [onIncluded_eq, MarkerNames.onSelected]
  split_ifs <;> rfl

/-! ## (3) Modules -/

/-- **Marked as patched**: a module that carries the marker is left alone. -/
theorem instrument_of_hasMarker (marked : m.hasMarker markers.injected = true) :
    (m.instrument markers registry).result = .ok .alreadyInstrumented
      ∧ (m.instrument markers registry).module = m := by
  rw [instrument, if_pos marked]
  exact ⟨rfl, rfl⟩

/-- **Nothing selected**: a module in which nothing is selected is left alone. -/
theorem instrument_of_selected_eq_nil (unmarked : m.hasMarker markers.injected = false)
    (none : m.selected markers = []) :
    (m.instrument markers registry).result = .ok .unchanged
      ∧ (m.instrument markers registry).module = m := by
  rw [instrument, if_neg (by rw [unmarked]; decide)]
  dsimp only
  rw [select_methods, none, if_pos List.isEmpty_nil]
  exact ⟨rfl, rfl⟩

/-- **Signing** a module adds the marker, and the reference unless it is there or is to the module
itself. -/
theorem sign_eq (m : Module) (markers : MarkerNames) (registry : PatchRegistry) :
    m.sign markers registry = { m with
      references := if registry.module = m.name ∨ registry.module ∈ m.references
        then m.references else m.references ++ [registry.module]
      markers := m.markers ++ [markers.injected] } := by
  rw [sign, addReference]
  split_ifs <;> rfl

/-- A module **patched**: the methods of selected sites are, and the module is signed. -/
def patched (m : Module) (markers : MarkerNames) (registry : PatchRegistry) : Module :=
  (m.mapSites (markers.onSelected (·.patched registry))).sign markers registry

/-- The sites of a patched module. -/
@[simp] theorem sites_patched : (m.patched markers registry).sites
    = m.sites.map (·.mapSites (markers.onSelected (·.patched registry))) := by
  rw [patched, sign_eq]
  exact sites_mapSites

/-- The bodies of a patched module. -/
theorem mem_bodies_patched {b : Body} : b ∈ (m.patched markers registry).bodies
    ↔ ∃ s ∈ m.sites, (markers.onSelected (·.patched registry) s).body? = some b := by
  rw [patched, sign_eq]
  exact mem_bodies_mapSites

/-- The bodies of the sites of a well-formed module are well formed. -/
theorem WellFormed.of_mem_sites (wf : m.WellFormed) (mem : s ∈ m.sites) :
    ∀ b, s.method.body? = some b → b.WellFormed :=
  fun b has => wf b (mem_bodies_iff.mpr ⟨s, mem, has⟩)

/-- **Bodies do not matter to selection**: the same sites are selected when bodies are changed. -/
theorem selects_mapSites {f : Site → MethodDef} {h : Body → Body} (same : f s = s.method.mapBody h) :
    markers.Selects (s.mapSites f) ↔ markers.Selects s := by
  rw [Site.mapSites, same]
  have hasBody : (s.method.mapBody h).body?.isSome = s.method.body?.isSome := Option.isSome_map
  constructor
  · rintro ⟨ordinary, some, marked⟩
    exact ⟨ordinary, hasBody ▸ some, marked⟩
  · rintro ⟨ordinary, some, marked⟩
    exact ⟨ordinary, hasBody.symm ▸ some, marked⟩

/-- **The same sites are selected** when preambles are put in front. -/
theorem selects_mapSites_prepended :
    markers.Selects (s.mapSites (markers.onSelected (·.prepended registry))) ↔ markers.Selects s := by
  obtain ⟨h, same⟩ : ∃ h, markers.onSelected (·.prepended registry) s = s.method.mapBody h := by
    rw [MarkerNames.onSelected]
    split
    · exact s.exists_prepended_eq_mapBody registry
    · exact ⟨id, (MethodDef.mapBody_eq_self fun _ _ => rfl).symm⟩
  exact selects_mapSites same

/-- A second change of the selected methods changes those that have their preamble in front. -/
theorem onSelected_mapSites_prepended (f : Site → MethodDef) :
    markers.onSelected f (s.mapSites (markers.onSelected (·.prepended registry)))
      = markers.onSelected (fun s => f (s.mapSites (markers.onSelected (·.prepended registry)))) s := by
  by_cases selects : markers.Selects s
  · rw [MarkerNames.onSelected, if_pos (selects_mapSites_prepended.mpr selects),
      MarkerNames.onSelected, if_pos selects]
  · rw [MarkerNames.onSelected, if_neg fun h => selects (selects_mapSites_prepended.mp h),
      Site.mapSites, MarkerNames.onSelected, if_neg selects, MarkerNames.onSelected, if_neg selects]

/-- Two changes of the selected methods are the same if they do the same to each of them. -/
theorem mapSites_onSelected_congr {f g : Site → MethodDef}
    (same : ∀ s ∈ m.selected markers, f s = g s) :
    m.mapSites (markers.onSelected f) = m.mapSites (markers.onSelected g) :=
  mapSites_congr fun _ mem => if_ctx_congr Iff.rfl
    (fun selects => same _ (mem_selected.mpr ⟨mem, selects⟩)) fun _ => rfl

/-- The selected methods, when preambles are put in front. -/
theorem selected_mapSites_prepended (m : Module) (markers : MarkerNames) (registry : PatchRegistry) :
    (m.mapSites (markers.onSelected (·.prepended registry))).selected markers
      = (m.selected markers).map (·.mapSites (markers.onSelected (·.prepended registry))) := by
  rw [selected, selected, sites_mapSites, List.filter_map]
  congr 1
  exact List.filter_congr fun s _ => decide_eq_decide.mpr selects_mapSites_prepended

variable (unmarked : m.hasMarker markers.injected = false)

include unmarked

/-- A sweep that cannot splice a preamble is the last one. -/
theorem instrument_of_splice_eq_some {failure : Failure} (nonempty : m.selected markers ≠ [])
    (fails : (m.sweep (markers.onIncluded (spliceMethod registry))).failure? = some failure) :
    (m.instrument markers registry).result = .error failure
      ∧ (m.instrument markers registry).module
        = (m.sweep (markers.onIncluded (spliceMethod registry))).after := by
  rw [instrument, if_neg (by rw [unmarked]; decide)]
  dsimp only
  rw [select_methods, if_neg (by rwa [List.isEmpty_iff]), fails]
  exact ⟨rfl, rfl⟩

/-- After a sweep that splices all preambles there is one that settles the methods, and the module is
signed if that succeeds. -/
theorem instrument_of_splice_eq_none (nonempty : m.selected markers ≠ []) {after : Module}
    (succeeds : (m.sweep (markers.onIncluded (spliceMethod registry))).failure? = none)
    (spliced : (m.sweep (markers.onIncluded (spliceMethod registry))).after = after) :
    let settled := after.sweep (markers.onIncluded settleMethod)
    (m.instrument markers registry).result = (match settled.failure? with
        | some failure => .error failure
        | none => .ok (.instrumented ((m.selected markers).map Site.name)))
      ∧ (m.instrument markers registry).module = match settled.failure? with
        | some _ => settled.after
        | none => settled.after.sign markers registry := by
  rw [instrument, if_neg (by rw [unmarked]; decide)]
  dsimp only
  rw [select_methods, if_neg (by rwa [List.isEmpty_iff]), succeeds, spliced]
  dsimp only
  cases (after.sweep (markers.onIncluded settleMethod)).failure? <;> exact ⟨rfl, rfl⟩

/-- **The first method without a preamble** ends the first sweep: the selected methods in front of it
have theirs in front, and all others are as they were. -/
theorem instrument_of_first_synthesis (wf : m.WellFormed) (mem : s ∈ m.selected markers)
    (made : ∀ s' ∈ m.selected markers, s'.Before s → ∃ p, s'.preamble registry = .ok p)
    (fails : s.preamble registry = .error fault) :
    (m.instrument markers registry).result = .error (s.failure .synthesized fault)
      ∧ (m.instrument markers registry).module = m.mapSites (markers.onSelected fun s' =>
        if s.Before s' then s'.method else s'.prepended registry) := by
  have step {s' : Site} (mem' : s' ∈ m.selected markers) :=
    have ⟨inModule, selects⟩ := mem_selected.mp mem'
    spliceMethod_of_isSome registry selects.hasBody (wf.of_mem_sites inModule)
  obtain ⟨failed, after⟩ := sweep_onIncluded_of_first (spliceMethod registry) mem
    (fun s' mem' earlier => by
      obtain ⟨p, preamble⟩ := made s' mem' earlier
      rw [(step mem').2, preamble])
    (by rw [(step mem).2, fails])
  obtain ⟨result, module⟩ :=
    instrument_of_splice_eq_some unmarked (List.ne_nil_of_mem mem) failed
  refine ⟨result, module.trans (after.trans (mapSites_onSelected_congr fun s' mem' => ?_))⟩
  rw [(step mem').1]

section Spliced

variable (wf : m.WellFormed) (made : ∀ s ∈ m.selected markers, ∃ p, s.preamble registry = .ok p)

include wf made

omit unmarked in
/-- **The first sweep** puts all preambles in front, if there is one for each selected method. -/
theorem splice_of_forall :
    (m.sweep (markers.onIncluded (spliceMethod registry))).failure? = none
      ∧ (m.sweep (markers.onIncluded (spliceMethod registry))).after
        = m.mapSites (markers.onSelected (·.prepended registry)) := by
  have step {s : Site} (mem : s ∈ m.selected markers) :=
    have ⟨inModule, selects⟩ := mem_selected.mp mem
    spliceMethod_of_isSome registry selects.hasBody (wf.of_mem_sites inModule)
  obtain ⟨none, after⟩ := sweep_onIncluded_of_forall (spliceMethod registry) fun s mem => by
    obtain ⟨p, preamble⟩ := made s mem
    rw [(step mem).2, preamble]
  exact ⟨none, after.trans (mapSites_onSelected_congr fun s mem => (step mem).1)⟩

omit unmarked in
/-- A step of **the second sweep**, on a selected method that has its preamble in front. -/
theorem settle_of_mem (mem : s ∈ m.selected markers) :
    let site := s.mapSites (markers.onSelected (·.prepended registry))
    (settleMethod site.owner site.method).after = s.patched registry
      ∧ (settleMethod site.owner site.method).failure?
        = (s.patchedFault? registry).map (s.failure .serialized) := by
  obtain ⟨p, preamble⟩ := made s mem
  obtain ⟨inModule, -⟩ := mem_selected.mp mem
  have method := onSelected_of_mem (·.prepended registry) mem
  have wfPrepended : ∀ b, (s.prepended registry).body? = some b → b.WellFormed :=
    Site.wellFormed_prepended (wf.of_mem_sites inModule)
  obtain ⟨after, failure⟩ := settleMethod_eq s.owner wfPrepended
  rw [Site.mapBody_prepended preamble] at after
  dsimp only [Site.mapSites]
  obtain ⟨h, same⟩ := s.exists_prepended_eq_mapBody registry
  have name : (s.prepended registry).name = s.method.name := by
    rw [same]
    rfl
  rw [method]
  refine ⟨after, failure.trans ?_⟩
  rw [Site.patchedFault?, ← Site.mapBody_prepended preamble, MethodDef.mapBody, Option.bind_map, name]
  rfl

/-- **The first method that cannot be encoded** ends the second sweep: the selected methods behind it
have their preamble in front, but offsets as they were. -/
theorem instrument_of_first_serialization (mem : s ∈ m.selected markers)
    (encodes : ∀ s' ∈ m.selected markers, s'.Before s → s'.patchedFault? registry = none)
    (fails : s.patchedFault? registry = some fault) :
    (m.instrument markers registry).result = .error (s.failure .serialized fault)
      ∧ (m.instrument markers registry).module = m.mapSites (markers.onSelected fun s' =>
        if s.Before s' then s'.prepended registry else s'.patched registry) := by
  obtain ⟨spliced, after⟩ := splice_of_forall wf made
  obtain ⟨result, module⟩ :=
    instrument_of_splice_eq_none unmarked (List.ne_nil_of_mem mem) spliced after
  -- The second sweep is one of the module with the preambles in front.
  have selected := selected_mapSites_prepended m markers registry
  obtain ⟨failed, settled⟩ := sweep_onIncluded_of_first settleMethod
    (selected ▸ List.mem_map_of_mem mem)
    (fun site mem' earlier => by
      rw [selected] at mem'
      obtain ⟨s', inModule, rfl⟩ := List.mem_map.mp mem'
      rw [(settle_of_mem wf made inModule).2, encodes s' inModule earlier, Option.map_none])
    (by rw [(settle_of_mem wf made mem).2, fails, Option.map_some])
  rw [failed] at result module
  refine ⟨result, module.trans (settled.trans ?_)⟩
  rw [mapSites_mapSites]
  simp only [onSelected_mapSites_prepended]
  refine mapSites_onSelected_congr fun s' mem' => ?_
  refine if_ctx_congr Iff.rfl (fun _ => ?_) fun _ => (settle_of_mem wf made mem').1
  exact onSelected_of_mem _ mem'

/-- **All selected methods are patched**, and the module is signed, if each of them has a preamble and
can be encoded with it. -/
theorem instrument_of_forall (nonempty : m.selected markers ≠ [])
    (encodes : ∀ s ∈ m.selected markers, s.patchedFault? registry = none) :
    (m.instrument markers registry).result
        = .ok (.instrumented ((m.selected markers).map Site.name))
      ∧ (m.instrument markers registry).module
        = m.patched markers registry := by
  obtain ⟨spliced, after⟩ := splice_of_forall wf made
  obtain ⟨result, module⟩ := instrument_of_splice_eq_none unmarked nonempty spliced after
  have selected := selected_mapSites_prepended m markers registry
  obtain ⟨none, settled⟩ := sweep_onIncluded_of_forall settleMethod
    fun site mem => by
      rw [selected] at mem
      obtain ⟨s, inModule, rfl⟩ := List.mem_map.mp mem
      rw [(settle_of_mem wf made inModule).2, encodes s inModule, Option.map_none]
  rw [none] at result module
  refine ⟨result, module.trans ?_⟩
  have methods : (m.mapSites (markers.onSelected (·.prepended registry))).mapSites
      (markers.onSelected fun s => (settleMethod s.owner s.method).after)
      = m.mapSites (markers.onSelected (·.patched registry)) := by
    rw [mapSites_mapSites]
    simp only [onSelected_mapSites_prepended]
    exact mapSites_onSelected_congr fun s mem => (settle_of_mem wf made mem).1
  rw [settled, methods, patched]

end Spliced

omit unmarked in
/-- **When methods were instrumented**: each selected method has a preamble and can be encoded with it,
and what is left is the signed module with all of them patched. -/
theorem exists_of_instrumented (wf : m.WellFormed) {names : List String}
    (done : (m.instrument markers registry).result = .ok (.instrumented names)) :
    names = (m.selected markers).map Site.name
      ∧ (∀ s ∈ m.selected markers, ∃ p, s.preamble registry = .ok p)
      ∧ (∀ s ∈ m.selected markers, s.patchedFault? registry = none)
      ∧ (m.instrument markers registry).module
        = m.patched markers registry := by
  -- In all other cases the result is another.
  cases unmarked : m.hasMarker markers.injected with
  | true => cases done.symm.trans (instrument_of_hasMarker unmarked).1
  | false =>
    by_cases nonempty : m.selected markers = []
    · cases done.symm.trans (instrument_of_selected_eq_nil unmarked nonempty).1
    · rcases forall_or_first (fun s => ∃ p, s.preamble registry = .ok p) (m.selected markers) with
        made | ⟨front, s, back, split, made, unmade⟩
      · rcases forall_or_first (fun s => s.patchedFault? registry = none) (m.selected markers) with
          encodes | ⟨front, s, back, split, encodes, fails⟩
        · obtain ⟨result, module⟩ := instrument_of_forall unmarked wf made nonempty encodes
          refine ⟨?_, made, encodes, module⟩
          exact Outcome.instrumented.inj (Except.ok.inj (done.symm.trans result))
        · obtain ⟨mem, -, -, inFront⟩ := selected_split split
          obtain ⟨fault, fails⟩ := Option.ne_none_iff_exists'.mp fails
          have failed := instrument_of_first_serialization unmarked wf made mem
            (fun s' mem' earlier => encodes s' (inFront s' mem' earlier)) fails
          cases done.symm.trans failed.1
      · obtain ⟨mem, -, -, inFront⟩ := selected_split split
        cases preamble : s.preamble registry with
        | ok p => exact absurd ⟨p, preamble⟩ unmade
        | error fault =>
          have failed := instrument_of_first_synthesis unmarked wf mem
            (fun s' mem' earlier => made s' (inFront s' mem' earlier)) preamble
          cases done.symm.trans failed.1

end Module

end Hotpatch
