import Hotpatch.Proofs.Image.ReadBack
import Hotpatch.Proofs.Patch.Instrumenting

/-! # What instrumenting keeps

However instrumenting ends, it has done nothing but put preambles in front of some bodies, and sign
the module if it succeeded.

* **`exists_of_instrument`** — every method is as it was, or has its preamble in front, with old or
  with recomputed offsets.
* **`WellFormed.instrument`** — the invariant of the bodies is kept.
* **`Module.outline`** — what a module declares, without its bodies; it is all that selection looks at.
* **`outline_instrument`**, **`outline_imaged`** — it is kept by instrumenting and by image files. -/

namespace Hotpatch

variable {m m' : Module} {markers : MarkerNames} {registry : PatchRegistry} {s : Site}
  {method : MethodDef}

/-! ## (1) Methods -/

/-- A method that is **under way** from that of a site to the patched one. -/
inductive Site.UnderWay (registry : PatchRegistry) (s : Site) : MethodDef → Prop where
  | before : s.UnderWay registry s.method
  | prepended : s.UnderWay registry (s.prepended registry)
  | patched : s.UnderWay registry (s.patched registry)

namespace Site.UnderWay

/-- Nothing but the code and the stack depth of a method changes on the way. -/
theorem exists_eq_mapBody (way : s.UnderWay registry method) :
    ∃ h : Body → Body, method = s.method.mapBody h ∧ ∀ b, (h b).points = b.points := by
  have same : s.method = s.method.mapBody id := (MethodDef.mapBody_eq_self fun _ _ => rfl).symm
  cases way with
  | before => exact ⟨id, same, fun _ => rfl⟩
  | prepended =>
    rw [Site.prepended]
    split
    · exact ⟨_, rfl, fun _ => rfl⟩
    · exact ⟨id, same, fun _ => rfl⟩
  | patched =>
    rw [Site.patched]
    split
    · exact ⟨_, rfl, fun _ => rfl⟩
    · exact ⟨id, same, fun _ => rfl⟩

/-- A method stays well formed on the way. -/
theorem wellFormed (way : s.UnderWay registry method)
    (wf : ∀ b, s.method.body? = some b → b.WellFormed) :
    ∀ b, method.body? = some b → b.WellFormed := by
  cases way with
  | before => exact wf
  | prepended => exact s.wellFormed_prepended wf
  | patched => exact s.wellFormed_patched wf

end Site.UnderWay

namespace Module

/-- Changing the selected methods only along the way leaves all methods on it. -/
theorem underWay_onSelected {f : Site → MethodDef} (way : ∀ s : Site, s.UnderWay registry (f s))
    (s : Site) :
    s.UnderWay registry (markers.onSelected f s) := by
  rw [MarkerNames.onSelected]
  split
  · exact way s
  · exact .before

/-- **All that instrumenting does**: methods are changed only along the way to the patched ones, and
the module is signed if methods were instrumented. -/
theorem exists_of_instrument (wf : m.WellFormed) (markers : MarkerNames) (registry : PatchRegistry) :
    ∃ f : Site → MethodDef, (∀ s : Site, s.UnderWay registry (f s))
      ∧ (((∀ names, (m.instrument markers registry).result ≠ .ok (.instrumented names))
          ∧ (m.instrument markers registry).module = m.mapSites f)
        ∨ ((∃ names, (m.instrument markers registry).result = .ok (.instrumented names))
          ∧ (m.instrument markers registry).module = (m.mapSites f).sign markers registry)) := by
  have untouched : m = m.mapSites fun s => s.method := (mapSites_eq_self fun _ _ => rfl).symm
  cases unmarked : m.hasMarker markers.injected with
  | true =>
    obtain ⟨result, module⟩ : (m.instrument markers registry).result = .ok .alreadyInstrumented ∧ _ :=
      instrument_of_hasMarker unmarked
    refine ⟨fun s => s.method, fun _ => .before, .inl ⟨fun names => ?_, module.trans untouched⟩⟩
    simp [result]
  | false =>
    by_cases nonempty : m.selected markers = []
    · obtain ⟨result, module⟩ : (m.instrument markers registry).result = .ok .unchanged ∧ _ :=
        instrument_of_selected_eq_nil unmarked nonempty
      refine ⟨fun s => s.method, fun _ => .before, .inl ⟨fun names => ?_, module.trans untouched⟩⟩
      simp [result]
    · rcases forall_or_first (fun s => ∃ p, s.preamble registry = .ok p) (m.selected markers) with
        made | ⟨front, s, back, split, made, unmade⟩
      · rcases forall_or_first (fun s => s.patchedFault? registry = none) (m.selected markers) with
          encodes | ⟨front, s, back, split, encodes, fails⟩
        · obtain ⟨result, module⟩ := instrument_of_forall unmarked wf made nonempty encodes
          exact ⟨_, underWay_onSelected fun _ => .patched, .inr ⟨⟨_, result⟩, module⟩⟩
        · obtain ⟨mem, -, -, inFront⟩ := selected_split split
          obtain ⟨fault, fails⟩ := Option.ne_none_iff_exists'.mp fails
          obtain ⟨result, module⟩ := instrument_of_first_serialization unmarked wf made mem
            (fun s' mem' earlier => encodes s' (inFront s' mem' earlier)) fails
          refine ⟨_, underWay_onSelected fun s' => ?_, .inl ⟨fun names => ?_, module⟩⟩
          · split
            · exact .prepended
            · exact .patched
          · simp [result]
      · obtain ⟨mem, -, -, inFront⟩ := selected_split split
        cases preamble : s.preamble registry with
        | ok p => exact absurd ⟨p, preamble⟩ unmade
        | error fault =>
          obtain ⟨result, module⟩ := instrument_of_first_synthesis unmarked wf mem
            (fun s' mem' earlier => made s' (inFront s' mem' earlier)) preamble
          refine ⟨_, underWay_onSelected fun s' => ?_, .inl ⟨fun names => ?_, module⟩⟩
          · split
            · exact .before
            · exact .prepended
          · simp [result]

/-- **The invariant of the bodies is kept**, whether instrumenting succeeds or fails. -/
theorem WellFormed.instrument (wf : m.WellFormed) (markers : MarkerNames)
    (registry : PatchRegistry) : (m.instrument markers registry).module.WellFormed := by
  obtain ⟨f, way, ending⟩ := exists_of_instrument wf markers registry
  have changed : (m.mapSites f).WellFormed := by
    intro b mem
    obtain ⟨s, inModule, has⟩ := mem_bodies_mapSites.mp mem
    exact (way s).wellFormed (wf.of_mem_sites inModule) b has
  rcases ending with ⟨-, module⟩ | ⟨-, module⟩
  · exact module ▸ changed
  · rw [module, sign_eq]
    exact changed

/-! ## (2) Outlines -/

/-- The **outline** of a module: its types and methods with all bodies emptied. -/
def outline (m : Module) : List TypeDef :=
  (m.mapBodies fun _ => .empty).types

/-- Changing bodies keeps the outline. -/
theorem outline_mapSites {f : Site → MethodDef}
    (each : ∀ s ∈ m.sites, ∃ h, f s = s.method.mapBody h) : (m.mapSites f).outline = m.outline := by
  rw [outline, outline, mapBodies_eq_mapMethods, mapBodies_eq_mapMethods, mapMethods_eq_mapSites,
    mapMethods_eq_mapSites, mapSites_mapSites]
  refine congrArg types (mapSites_congr fun s mem => ?_)
  obtain ⟨h, same⟩ := each s mem
  simp only [Site.mapSites, same, MethodDef.mapBody, Option.map_map, Function.comp_def]

/-- An image has the outline of its module. -/
@[simp] theorem outline_imaged (m : Module) : m.imaged.module.outline = m.outline := by
  have bodies : (m.mapBodies Body.imaged).outline = m.outline := by
    rw [mapBodies_eq_mapMethods, mapMethods_eq_mapSites]
    exact outline_mapSites fun s _ => ⟨_, rfl⟩
  exact bodies

/-- **Instrumenting keeps the outline**, and also the markers unless methods were instrumented. -/
theorem outline_instrument (wf : m.WellFormed) (markers : MarkerNames) (registry : PatchRegistry) :
    (m.instrument markers registry).module.outline = m.outline
      ∧ ((∀ names, (m.instrument markers registry).result ≠ .ok (.instrumented names)) →
        (m.instrument markers registry).module.markers = m.markers) := by
  obtain ⟨f, way, ending⟩ := exists_of_instrument wf markers registry
  have outline : (m.mapSites f).outline = m.outline := outline_mapSites fun s _ =>
    have ⟨h, same, _⟩ := (way s).exists_eq_mapBody
    ⟨h, same⟩
  rcases ending with ⟨-, module⟩ | ⟨⟨names, result⟩, module⟩
  · exact ⟨module ▸ outline, fun _ => module ▸ rfl⟩
  · refine ⟨?_, fun others => absurd result (others names)⟩
    rw [module, sign_eq]
    exact outline

/-- **Selection looks at the outline**: if nothing is selected in a module, then nothing is in others
with the same outline. -/
theorem selected_eq_nil_of_outline (same : m.outline = m'.outline)
    (nothing : m.selected markers = []) : m'.selected markers = [] := by
  have emptied (n : Module) : n.selected markers = []
      ↔ ∀ s ∈ (⟨"", [], [], n.outline, none⟩ : Module).sites, ¬ markers.Selects s := by
    have sites : (⟨"", [], [], n.outline, none⟩ : Module).sites
        = n.sites.map (·.mapSites fun s => s.method.mapBody fun _ => .empty) := by
      rw [← sites_mapSites]
      show (n.mapBodies fun _ => .empty).sites = _
      rw [mapBodies_eq_mapMethods, mapMethods_eq_mapSites]
    rw [sites, List.forall_mem_map, selected, List.filter_eq_nil_iff]
    refine forall₂_congr fun s _ => ?_
    rw [decide_eq_true_eq, selects_mapSites (h := fun _ => .empty) rfl]
  rw [emptied, ← same, ← emptied]
  exact nothing

end Module

end Hotpatch
