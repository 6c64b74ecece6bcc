import Hotpatch.Patch.Instrument
import Hotpatch.Proofs.Image.Faults
import Hotpatch.Proofs.Image.Places

/-! # Sweeps

What comes of one attempt after the other, on the members of a list and on the methods of a module.

* **`Trial.failure?_sweep`**, **`Trial.after_sweep`** — a sweep fails with the first failure, and
  changes the members up to there.
* **`Module.Reached`** — the sites that a sweep of a module gets to.
* **`Module.failure?_sweep`**, **`Module.after_sweep`** — the same for the sites of a module, in the
  order of declaration.
* **`Module.sweep_of_forall`**, **`Module.sweep_of_first`** — sweeps without a failure, and sweeps with
  a first one. -/

namespace Hotpatch

/-! ## (1) Lists -/

namespace Trial

variable {α : Type}

/-- **A sweep fails** with the first failure. -/
@[simp] theorem failure?_sweep (step : α → Trial α) (xs : List α) :
    (sweep step xs).failure? = xs.findSome? fun x => (step x).failure? := by
  induction xs with
  | nil => rfl
  | cons x xs ih =>
    rw [sweep, List.findSome?_cons]
    cases (step x).failure? with
    | none => exact ih
    | some failure => rfl

/-- **What a sweep leaves**: it has changed the members up to the first that failed, that one included.
-/
theorem after_sweep (step : α → Trial α) (xs : List α) :
    (sweep step xs).after = xs.mapIdx fun position x =>
      if ∀ y ∈ xs.take position, (step y).failure? = none then (step x).after else x := by
  induction xs with
  | nil => rfl
  | cons x xs ih =>
    rw [sweep, List.mapIdx_cons, List.take_zero, if_pos (List.forall_mem_nil _)]
    simp only [List.take_succ_cons, List.forall_mem_cons]
    cases first : (step x).failure? with
    | none =>
      simp only [true_and]
      rw [ih]
    | some failure =>
      -- Behind a failure no member is reached.
      simp only [reduceCtorEq, false_and, if_false]
      rw [mapIdx_eq_self]

end Trial

/-! ## (2) Modules -/

/-- The **sweep of a type**, which is one attempt of the sweep of its module. -/
def TypeDef.sweep (step : MethodDef → Trial MethodDef) (owner : TypeDef) : Trial TypeDef :=
  (Trial.sweep step owner.methods).map fun methods => { owner with methods }

/-- A sweep of a type fails with the first failure of a method. -/
@[simp] theorem TypeDef.failure?_sweep (step : MethodDef → Trial MethodDef) (owner : TypeDef) :
    (owner.sweep step).failure? = owner.methods.findSome? fun method => (step method).failure? :=
  Trial.failure?_sweep _ _

namespace Module

variable {m : Module} {step : TypeDef → MethodDef → Trial MethodDef} {s : Site}

/-- A sweep of a module sweeps its types. -/
theorem sweep_eq : m.sweep step
    = (Trial.sweep (fun owner => owner.sweep (step owner)) m.types).map fun types =>
      { m with types } := rfl

/-- A site is **reached** if no step fails on a site before it. -/
def Reached (m : Module) (step : TypeDef → MethodDef → Trial MethodDef) (s : Site) : Prop :=
  ∀ s' ∈ m.sites, s'.Before s → (step s'.owner s'.method).failure? = none

instance : Decidable (m.Reached step s) := inferInstanceAs (Decidable (∀ s' ∈ m.sites, _ → _))

/-- **A sweep of a module fails** with the first failure of a site. -/
@[simp] theorem failure?_sweep : (m.sweep step).failure?
    = m.sites.findSome? fun s => (step s.owner s.method).failure? := by
  have positions {α β : Type} (f : α → Option β) (xs : List α) :
      xs.findSome? f = xs.zipIdx.findSome? fun x => f x.1 := by
    conv_lhs => rw [← List.zipIdx_map_fst 0 xs, List.findSome?_map]
    rfl
  have outer : (m.sweep step).failure?
      = m.types.findSome? fun owner => owner.methods.findSome? fun method =>
        (step owner method).failure? := by
    rw [sweep_eq, Trial.map, Trial.failure?_sweep]
    simp only [TypeDef.failure?_sweep]
  -- The sites are the methods of all types, with their positions.
  rw [outer, sites, findSome?_flatMap, positions]
  congr 1
  funext x
  rw [positions, List.findSome?_map]
  rfl

/-- **The sites that are reached**: none fails in the types in front, and none in front in the type. -/
theorem reached_iff (mem : s ∈ m.sites) :
    m.Reached step s ↔ (∀ owner ∈ m.types.take s.typeIndex,
        (owner.sweep (step owner)).failure? = none)
      ∧ ∀ method ∈ s.owner.methods.take s.methodIndex, (step s.owner method).failure? = none := by
  obtain ⟨inModule, inType⟩ := mem_sites.mp mem
  simp only [TypeDef.failure?_sweep, List.findSome?_eq_none_iff]
  constructor
  · intro reached
    refine ⟨fun owner earlier method inside => ?_, fun method earlier => ?_⟩
    · obtain ⟨typeIndex, here⟩ := List.mem_iff_getElem?.mp earlier
      obtain ⟨methodIndex, there⟩ := List.mem_iff_getElem?.mp inside
      rw [List.getElem?_take] at here
      split at here
      · next before =>
        exact reached ⟨typeIndex, methodIndex, owner, method⟩ (mem_sites.mpr ⟨here, there⟩)
          (.inl before)
      · cases here
    · obtain ⟨methodIndex, here⟩ := List.mem_iff_getElem?.mp earlier
      rw [List.getElem?_take] at here
      split at here
      · next before =>
        exact reached ⟨s.typeIndex, methodIndex, s.owner, method⟩ (mem_sites.mpr ⟨inModule, here⟩)
          (.inr ⟨rfl, before⟩)
      · cases here
  · rintro ⟨types, methods⟩ s' mem' before
    obtain ⟨inModule', inType'⟩ := mem_sites.mp mem'
    rcases before with typeBefore | ⟨sameType, methodBefore⟩
    · refine types s'.owner (List.mem_iff_getElem?.mpr ⟨s'.typeIndex, ?_⟩) s'.method
        (List.mem_of_getElem? inType')
      rw [List.getElem?_take_of_lt typeBefore, inModule']
    · rw [sameType, inModule] at inModule'
      have same := Option.some.inj inModule'
      rw [← same] at inType' ⊢
      refine methods s'.method (List.mem_iff_getElem?.mpr ⟨s'.methodIndex, ?_⟩)
      rw [List.getElem?_take_of_lt methodBefore, inType']

/-- **What a sweep of a module leaves**: it has changed the methods that it reached. -/
theorem after_sweep : (m.sweep step).after
    = m.mapSites fun s => if m.Reached step s then (step s.owner s.method).after else s.method := by
  have types : (Trial.sweep (fun owner => owner.sweep (step owner)) m.types).after
      = m.types.mapIdx (TypeDef.mapSites fun s =>
        if m.Reached step s then (step s.owner s.method).after else s.method) := by
    rw [Trial.after_sweep, List.mapIdx_eq_mapIdx_iff]
    intro typeIndex bound
    have site (methodIndex : Nat) (inside : methodIndex < (m.types[typeIndex]).methods.length) :
        (⟨typeIndex, methodIndex, m.types[typeIndex], (m.types[typeIndex]).methods[methodIndex]⟩ : Site)
          ∈ m.sites :=
      mem_sites.mpr ⟨List.getElem?_eq_getElem bound, List.getElem?_eq_getElem inside⟩
    split
    · next noFailure =>
      have methods : (Trial.sweep (step m.types[typeIndex]) (m.types[typeIndex]).methods).after
          = (m.types[typeIndex]).methods.mapIdx fun methodIndex method =>
            if m.Reached step ⟨typeIndex, methodIndex, m.types[typeIndex], method⟩
            then (step m.types[typeIndex] method).after else method := by
        rw [Trial.after_sweep, List.mapIdx_eq_mapIdx_iff]
        intro methodIndex inside
        refine if_congr ?_ rfl rfl
        exact (and_iff_right noFailure).symm.trans (reached_iff (site methodIndex inside)).symm
      rw [TypeDef.mapSites, TypeDef.sweep, Trial.map, methods]
    · next failed =>
      -- No method of a type is reached behind a type with a failure.
      have methods : ((m.types[typeIndex]).methods.mapIdx fun methodIndex method =>
          if m.Reached step ⟨typeIndex, methodIndex, m.types[typeIndex], method⟩
          then (step m.types[typeIndex] method).after else method)
            = (m.types[typeIndex]).methods.mapIdx fun _ method => method := by
        rw [List.mapIdx_eq_mapIdx_iff]
        intro methodIndex inside
        exact if_neg fun reached => failed ((reached_iff (site methodIndex inside)).mp reached).1
      rw [TypeDef.mapSites, methods, mapIdx_eq_self]
  rw [sweep_eq, mapSites, ← types]
  rfl

/-- **A sweep without failures** changes all methods. -/
theorem sweep_of_forall (succeeds : ∀ s ∈ m.sites, (step s.owner s.method).failure? = none) :
    (m.sweep step).failure? = none
      ∧ (m.sweep step).after = m.mapSites fun s => (step s.owner s.method).after := by
  refine ⟨?_, ?_⟩
  · rw [failure?_sweep, List.findSome?_eq_none_iff]
    exact succeeds
  · rw [after_sweep]
    exact mapSites_congr fun s mem => if_pos fun s' mem' _ => succeeds s' mem'

/-- **A sweep with a first failure** fails with it, and changes all methods but those behind it. -/
theorem sweep_of_first {failure : Failure} (mem : s ∈ m.sites)
    (succeeds : ∀ s' ∈ m.sites, s'.Before s → (step s'.owner s'.method).failure? = none)
    (fails : (step s.owner s.method).failure? = some failure) :
    (m.sweep step).failure? = some failure
      ∧ (m.sweep step).after = m.mapSites fun s' =>
        if s.Before s' then s'.method else (step s'.owner s'.method).after := by
  refine ⟨?_, ?_⟩
  · obtain ⟨front, back, split⟩ := List.append_of_mem mem
    have order := m.pairwise_sites
    rw [split] at order
    rw [failure?_sweep, List.findSome?_eq_some_iff]
    refine ⟨front, s, back, split, fails, fun s' earlier => ?_⟩
    -- The sites in front in the list are in front in the module.
    have before := (List.pairwise_append.mp order).2.2 s' earlier s List.mem_cons_self
    exact succeeds s' (split ▸ List.mem_append_left _ earlier) before
  · rw [after_sweep]
    refine mapSites_congr fun s' mem' => ?_
    by_cases behind : s.Before s'
    · have unreached : ¬ m.Reached step s' := by
        intro reached
        rw [reached s mem behind] at fails
        cases fails
      rw [if_neg unreached, if_pos behind]
    · have reached : m.Reached step s' :=
        fun s'' mem'' earlier => succeeds s'' mem'' (earlier.trans_not_before behind)
      rw [if_pos reached, if_neg behind]

end Module

end Hotpatch
