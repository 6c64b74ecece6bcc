import Hotpatch.Proofs.Patch.Instrumenting

/-! # What instrumenting changes

Instrumenting a module changes the bodies of selected methods, and signs the module if it succeeds;
nothing else.

* **`Body.PatchedFrom`** — a body with a preamble once in front of the old layout.
* **`Site.Patched`** — the method of a site with such a body.
* **`Module.instrument_changes`** — every way in which instrumenting can end, and the module it leaves.
-/

namespace Hotpatch

/-! ## (1) Bodies and methods -/

/-- A body **patched from** an old one with a preamble: in the layout the instructions of the preamble
stand once, in order, under handles that are new, and behind them the old layout stands, every handle
with its instruction. -/
structure Body.PatchedFrom (new old : Body) (p : Preamble) : Prop where
  layout : new.code.map (fun placed => (placed.handle, placed.instruction))
    = (p.instructions.mapIdx fun position instruction =>
        ((⟨old.code.length + position⟩ : Handle), instruction))
      ++ old.code.map fun placed => (placed.handle, placed.instruction)
  maxStack : new.maxStack = max old.maxStack p.maxStack
  initLocals : new.initLocals = old.initLocals
  locals : new.locals = old.locals
  points : new.points = old.points

/-- **Current** offsets in the body of a method. -/
def MethodDef.Current (method : MethodDef) : Prop :=
  ∀ b, method.body? = some b → b.offsetsAreCurrent = true

/-- A method that is that of a site **patched** with its preamble. -/
def Site.Patched (registry : PatchRegistry) (s : Site) (method : MethodDef) : Prop :=
  ∃ old p new, s.method.body? = some old ∧ s.preamble registry = .ok p ∧ new.PatchedFrom old p
    ∧ method = { s.method with body? := some new }

namespace Body

/-- A body with a preamble in front is patched. -/
@[simp] theorem patchedFrom_prepend (b : Body) (p : Preamble) : (b.prepend p).PatchedFrom b p := by
  have front : (enlist b.code.length p.instructions).map (fun placed =>
        (placed.handle, placed.instruction))
      = p.instructions.mapIdx fun position instruction =>
        ((⟨b.code.length + position⟩ : Handle), instruction) := by
    refine List.ext_getElem? fun position => ?_
    rw [List.getElem?_map, getElem?_enlist, List.getElem?_mapIdx, Option.map_map]
    rfl
  refine ⟨?_, rfl, rfl, rfl, rfl⟩
  rw [prepend, List.map_append, front]

/-- Recomputing offsets changes nothing in a patched body that was not new. -/
@[simp] theorem patchedFrom_patched (b : Body) (p : Preamble) : (b.patched p).PatchedFrom b p := by
  refine ⟨?_, rfl, rfl, rfl, rfl⟩
  rw [patched, recomputeOffsets, map_layOut fun _ _ => rfl]
  exact (patchedFrom_prepend b p).layout

/-- **A preamble makes the offsets stale**, until they are recomputed. -/
theorem not_current_prepend {b : Body} {t : MethodTarget} {registry : PatchRegistry} {first : Handle}
    {p : Preamble} (built : Preamble.build t registry first = .ok p) :
    (b.prepend p).offsetsAreCurrent = false := by
  -- The second instruction would start behind the first one, but it starts at zero like all new ones.
  obtain ⟨rest, shape⟩ : ∃ rest,
      p.instructions = .ldstr t.typeName :: .ldstr t.methodName :: rest :=
    ⟨_, Preamble.instructions_of_build built⟩
  have second : (b.prepend p).code[1]? = some ⟨⟨b.code.length + 1⟩, 0, .ldstr t.methodName⟩ := by
    rw [prepend, List.getElem?_append_left (by rw [length_enlist, shape]; simp), getElem?_enlist, shape]
    rfl
  have first : widths (b.prepend p).code = 5 :: (widths (b.prepend p).code).tail := by
    rw [prepend, widths, List.map_append, ← widths, widths_enlist, shape]
    rfl
  rw [Bool.eq_false_iff]
  intro current
  have start : 0 = startOf (widths (b.prepend p).code) 1 :=
    offsetsAreCurrent_iff.mp current 1 _ second
  rw [first, startOf_cons_succ] at start
  omega

end Body

namespace Site

variable {s : Site} {registry : PatchRegistry} {p : Preamble}

/-- The method with its preamble in front is patched, but its offsets are stale. -/
theorem patched_prepended (made : s.preamble registry = .ok p) :
    s.Patched registry (s.prepended registry) ∧ ¬ (s.prepended registry).Current := by
  obtain ⟨b, first, has, -, built⟩ := exists_of_preamble made
  have method : s.prepended registry = { s.method with body? := some (b.prepend p) } := by
    rw [prepended, made]
    dsimp only
    rw [MethodDef.mapBody, has, Option.map_some]
  rw [method]
  refine ⟨⟨b, p, _, has, made, b.patchedFrom_prepend p, rfl⟩, fun current => ?_⟩
  have stale := Body.not_current_prepend (b := b) built
  rw [current _ rfl] at stale
  cases stale

/-- The patched method is patched, and its offsets are current. -/
theorem patched_patched (made : s.preamble registry = .ok p) :
    s.Patched registry (s.patched registry) ∧ (s.patched registry).Current := by
  obtain ⟨b, first, has, -, built⟩ := exists_of_preamble made
  have method : s.patched registry = { s.method with body? := some (b.patched p) } := by
    rw [patched, made]
    dsimp only
    rw [MethodDef.mapBody, has, Option.map_some]
  rw [method]
  refine ⟨⟨b, p, _, has, made, b.patchedFrom_patched p, rfl⟩, fun new same => ?_⟩
  rw [← Option.some.inj same]
  exact Body.current_patched

end Site

/-! ## (2) Modules -/

namespace Module

variable {m : Module} {markers : MarkerNames} {registry : PatchRegistry} {front back : List Site}
  {failing s : Site} {fault : Fault}

section Split

variable (split : m.selected markers = front ++ failing :: back)

include split

/-- **When a method has no preamble**, those in front of it have theirs, and the others are as before. -/
theorem onSelected_of_first_synthesis
    (made : ∀ s ∈ front, ∃ p, s.preamble registry = .ok p)
    (fails : failing.preamble registry = .error fault) :
    let f := markers.onSelected fun s =>
      if failing.Before s then s.method else s.prepended registry
    (∀ s ∈ front, s.Patched registry (f s) ∧ ¬ (f s).Current)
      ∧ ∀ s ∈ failing :: back, f s = s.method := by
  obtain ⟨-, before, behind, -⟩ := selected_split split
  refine ⟨fun s part => ?_, fun s part => ?_⟩
  · have mem : s ∈ m.selected markers := split ▸ List.mem_append_left _ part
    obtain ⟨p, preamble⟩ := made s part
    rw [onSelected_of_mem _ mem, if_neg (before s part).asymm]
    exact Site.patched_prepended preamble
  · have mem : s ∈ m.selected markers := split ▸ List.mem_append_right _ part
    rw [onSelected_of_mem _ mem]
    rcases List.mem_cons.mp part with rfl | part
    · rw [if_neg s.not_before_self, Site.prepended, fails]
    · rw [if_pos (behind s part)]

/-- **When a method cannot be encoded** with its preamble, all methods have theirs, and the offsets are
current up to that method. -/
theorem onSelected_of_first_serialization (wf : m.WellFormed)
    (made : ∀ s ∈ m.selected markers, ∃ p, s.preamble registry = .ok p)
    (fails : failing.patchedFault? registry = some fault) :
    let f := markers.onSelected fun s =>
      if failing.Before s then s.prepended registry else s.patched registry
    (∀ b, (f failing).body? = some b → ∀ tokens, b.encode tokens = .error fault)
      ∧ (∀ s ∈ m.selected markers, s.Patched registry (f s))
      ∧ (∀ s ∈ front ++ [failing], (f s).Current)
      ∧ ∀ s ∈ back, ¬ (f s).Current := by
  obtain ⟨failingMem, before, behind, -⟩ := selected_split split
  have settled {s : Site} (part : s ∈ front ++ [failing]) : ¬ failing.Before s := by
    rcases List.mem_append.mp part with earlier | last
    · exact (before s earlier).asymm
    · exact List.mem_singleton.mp last ▸ failing.not_before_self
  refine ⟨fun b has tokens => ?_, fun s mem => ?_, fun s part => ?_, fun s part => ?_⟩
  · rw [onSelected_of_mem _ failingMem, if_neg failing.not_before_self] at has
    have decides := (Site.wellFormed_patched
      (wf.of_mem_sites (mem_selected.mp failingMem).1) b has).decides_encode
    rw [Site.patchedFault?, has, Option.bind_some] at fails
    rw [fails] at decides
    exact decides tokens
  · obtain ⟨p, preamble⟩ := made s mem
    rw [onSelected_of_mem _ mem]
    split
    · exact (Site.patched_prepended preamble).1
    · exact (Site.patched_patched preamble).1
  · have mem : s ∈ m.selected markers := by
      rw [split, List.append_cons]
      exact List.mem_append_left back part
    obtain ⟨p, preamble⟩ := made s mem
    rw [onSelected_of_mem _ mem, if_neg (settled part)]
    exact (Site.patched_patched preamble).2
  · have mem : s ∈ m.selected markers :=
      split ▸ List.mem_append_right _ (List.mem_cons_of_mem _ part)
    obtain ⟨p, preamble⟩ := made s mem
    rw [onSelected_of_mem _ mem, if_pos (behind s part)]
    exact (Site.patched_prepended preamble).2

end Split

/-- **Everything that instrumenting changes.** A module that carries the marker, or in which nothing is
selected, stays as it is. Otherwise only the methods of selected sites change. If all of them can be
patched they are, in the order of declaration, and the module refers to that of the registry and
carries the marker. If one has no preamble then those in front of it are patched, with stale offsets,
and the others are not; if one cannot be encoded with its preamble then all are patched, but behind it
with stale offsets. -/
theorem instrument_changes (wf : m.WellFormed) (markers : MarkerNames)
    (registry : PatchRegistry) :
    let selected := m.selected markers
    let done := m.instrument markers registry
    (m.hasMarker markers.injected = true → done.result = .ok .alreadyInstrumented ∧ done.module = m)
      ∧ (m.hasMarker markers.injected = false → selected = [] →
        done.result = .ok .unchanged ∧ done.module = m)
      ∧ (m.hasMarker markers.injected = false → selected ≠ [] → ∃ f : Site → MethodDef,
        (∀ s ∈ m.sites, s ∉ selected → f s = s.method)
        ∧ ((done.result = .ok (.instrumented (selected.map Site.name))
            ∧ done.module = { m.mapSites f with
                references := if registry.module = m.name ∨ registry.module ∈ m.references
                  then m.references else m.references ++ [registry.module]
                markers := m.markers ++ [markers.injected] }
            ∧ ∀ s ∈ selected, s.Patched registry (f s) ∧ (f s).Current)
          ∨ (done.module = m.mapSites f ∧ ∃ front failing back fault,
            selected = front ++ failing :: back
            ∧ ((done.result = .error (failing.failure .synthesized fault)
                ∧ failing.preamble registry = .error fault
                ∧ (∀ s ∈ front, s.Patched registry (f s) ∧ ¬ (f s).Current)
                ∧ ∀ s ∈ failing :: back, f s = s.method)
              ∨ (done.result = .error (failing.failure .serialized fault)
                ∧ (∀ b, (f failing).body? = some b → ∀ tokens, b.encode tokens = .error fault)
                ∧ (∀ s ∈ selected, s.Patched registry (f s))
                ∧ (∀ s ∈ front ++ [failing], (f s).Current)
                ∧ ∀ s ∈ back, ¬ (f s).Current))))) := by
  dsimp only
  refine ⟨instrument_of_hasMarker, instrument_of_selected_eq_nil, fun unmarked nonempty => ?_⟩
  rcases forall_or_first (fun s => ∃ p, s.preamble registry = .ok p) (m.selected markers) with
    made | ⟨front, failing, back, split, made, unmade⟩
  · rcases forall_or_first (fun s => s.patchedFault? registry = none) (m.selected markers) with
      encodes | ⟨front, failing, back, split, encodes, fails⟩
    · -- All selected methods are patched.
      obtain ⟨result, module⟩ := instrument_of_forall unmarked wf made nonempty encodes
      refine ⟨_, fun s => onSelected_of_not_mem _, .inl ⟨result, module.trans (sign_eq _ _ _), ?_⟩⟩
      intro s mem
      obtain ⟨p, preamble⟩ := made s mem
      rw [onSelected_of_mem _ mem]
      exact Site.patched_patched preamble
    · -- All have their preambles, but one cannot be encoded.
      obtain ⟨mem, -, -, inFront⟩ := selected_split split
      obtain ⟨fault, fails⟩ := Option.ne_none_iff_exists'.mp fails
      obtain ⟨result, module⟩ := instrument_of_first_serialization unmarked wf made mem
        (fun s' mem' earlier => encodes s' (inFront s' mem' earlier)) fails
      have changes := onSelected_of_first_serialization split wf made fails
      exact ⟨_, fun s => onSelected_of_not_mem _, .inr
        ⟨module, front, failing, back, fault, split, .inr ⟨result, changes⟩⟩⟩
  · -- One has no preamble.
    obtain ⟨mem, -, -, inFront⟩ := selected_split split
    cases preamble : failing.preamble registry with
    | ok p => exact absurd ⟨p, preamble⟩ unmade
    | error fault =>
      obtain ⟨result, module⟩ := instrument_of_first_synthesis unmarked wf mem
        (fun s' mem' earlier => made s' (inFront s' mem' earlier)) preamble
      have changes := onSelected_of_first_synthesis split made preamble
      exact ⟨_, fun s => onSelected_of_not_mem _, .inr
        ⟨module, front, failing, back, fault, split, .inl ⟨result, preamble, changes⟩⟩⟩

/-- A module in which a type is marked as a whole, with a constructor, an exception, an ordinary method
and one without a body; and another type with one method that is marked and one that is not. -/
def crowd : Module :=
  let body : Body := ⟨0, false, [], [], [⟨⟨0⟩, 0, .plain .ret⟩]⟩
  let method (name : String) (markers : List String) (body? : Option Body) : MethodDef :=
    ⟨name, ⟨0⟩, [], .builtin .void, markers, body?⟩
  { name := "Demo"
    references := ["Core"]
    markers := []
    types := [
      ⟨"Demo", "All", .visible, ["HotfixAll"], [method ".ctor" [] (some body),
        method "keep" ["HotfixIgnore"] (some body), method "run" [] (some body), method "later" [] none]⟩,
      ⟨"Demo", "Some", .visible, [], [method "rest" [] (some body), method "go" ["Hotfix"] (some body)]⟩]
    document? := none }

/-- In the crowd two methods are patched, one of each type. -/
theorem instrument_changes_crowd :
    (crowd.instrument .standard (.standard "Hotfix" "Registry")).result
        = .ok (.instrumented ["Demo.All::run", "Demo.Some::go"])
      ∧ ∃ f, (crowd.instrument .standard (.standard "Hotfix" "Registry")).module
          = { crowd.mapSites f with references := ["Core", "Hotfix"], markers := ["HotfixInjected"] }
        ∧ (∀ s ∈ crowd.sites, s ∉ crowd.selected .standard → f s = s.method)
        ∧ ∀ s ∈ crowd.selected .standard,
          s.Patched (.standard "Hotfix" "Registry") (f s) ∧ (f s).Current := by
  have wf : crowd.WellFormed := by
    intro b mem
    obtain rfl : b = ⟨0, false, [], [], [⟨⟨0⟩, 0, .plain .ret⟩]⟩ := by
      simpa [crowd, bodies, TypeDef.bodies] using mem
    exact ⟨by decide, by decide⟩
  have done : (crowd.instrument .standard (.standard "Hotfix" "Registry")).result
      = .ok (.instrumented ["Demo.All::run", "Demo.Some::go"]) := by decide +kernel
  refine ⟨done, ?_⟩
  obtain ⟨-, -, changes⟩ := instrument_changes wf .standard (.standard "Hotfix" "Registry")
  obtain ⟨f, others, ⟨-, module, each⟩ | ⟨-, _, _, _, _, -, ⟨failed, -⟩ | ⟨failed, -⟩⟩⟩ :=
    changes (by decide) (by decide +kernel)
  · exact ⟨f, module, others, each⟩
  · cases done.symm.trans failed
  · cases done.symm.trans failed

end Module

end Hotpatch
