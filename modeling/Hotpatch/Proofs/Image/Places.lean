import Hotpatch.Proofs.Image.Shape

/-! # Places of methods

A module by the places of its methods.

* **`Module.mem_sites`**, **`Module.pairwise_sites`** — the sites are the places that hold a method, in
  the order of declaration.
* **`Module.mapSites`**, **`Module.mapMethods`** — a module with every method changed according to its
  site, or to its place alone.
* **`Module.sites_mapSites`** — the sites of such a module.
* **`Module.flatMap_sites`** — a place holds one method at most. -/

namespace Hotpatch

open Bounded (Fits)

/-! ## (1) Positions in lists -/

/-- Members that are changed to themselves leave a list as it is. -/
@[simp] theorem mapIdx_eq_self {α : Type} (xs : List α) : (xs.mapIdx fun _ x => x) = xs := by
  rw [List.mapIdx_eq_iff]
  intro index
  rw [Option.map_id']

/-- Modifying one member of a list changes none of the others. -/
theorem modify_eq_mapIdx {α : Type} (xs : List α) (index : Nat) (h : α → α) :
    xs.modify index h = xs.mapIdx fun other x => if other = index then h x else x := by
  -- Both lists agree index by index.
  refine (List.mapIdx_eq_iff.mpr fun other => ?_).symm
  rw [List.getElem?_modify]
  simp only [eq_comm]
  rfl

/-- Changing the members of a list by position moves none of them. -/
theorem zipIdx_mapIdx {α β : Type} (xs : List α) (f : Nat → α → β) :
    (xs.mapIdx f).zipIdx = xs.zipIdx.map fun x => (f x.2 x.1, x.2) := by
  refine List.ext_getElem? fun index => ?_
  rw [List.getElem?_zipIdx, List.getElem?_mapIdx, List.getElem?_map, List.getElem?_zipIdx]
  cases xs[index]? with
  | none => rfl
  | some x => simp only [Option.map_some, Nat.zero_add]

/-- The positions of a list increase. -/
theorem pairwise_zipIdx {α : Type} (xs : List α) : xs.zipIdx.Pairwise fun x y => x.2 < y.2 := by
  have positions : (xs.zipIdx.map (·.2)).Pairwise (· < ·) := by
    rw [List.zipIdx_map_snd]
    exact List.pairwise_lt_range'
  exact List.pairwise_map.mp positions

/-- A list by its positions holds one member at each. -/
theorem flatMap_zipIdx {α β : Type} (f : α → List β) (xs : List α) (start position : Nat) :
    ((xs.zipIdx start).flatMap fun x => if start + position = x.2 then f x.1 else [])
      = (xs[position]?.map f).getD [] := by
  induction xs generalizing start position with
  | nil => rfl
  | cons x xs ih =>
    rw [List.zipIdx_cons, List.flatMap_cons]
    cases position with
    | zero =>
      -- Behind the first member all positions are larger.
      have none : ((xs.zipIdx (start + 1)).flatMap fun x =>
          if start + 0 = x.2 then f x.1 else []) = [] := by
        refine List.flatMap_eq_nil_iff.mpr fun y mem => if_neg ?_
        have behind := List.le_snd_of_mem_zipIdx mem
        omega
      rw [if_pos (Nat.add_zero start), none, List.append_nil]
      rfl
    | succ position =>
      have others := ih (start + 1) position
      rw [Nat.add_right_comm, Nat.add_assoc] at others
      rw [others, if_neg (by simp), List.nil_append, List.getElem?_cons_succ]

/-! ## (2) Sites -/

/-- A site **before** another in the order of declaration. -/
def Site.Before (s s' : Site) : Prop :=
  s.typeIndex < s'.typeIndex ∨ s.typeIndex = s'.typeIndex ∧ s.methodIndex < s'.methodIndex

instance (s s' : Site) : Decidable (s.Before s') := inferInstanceAs (Decidable (_ ∨ _))

namespace Site

variable {s s' s'' : Site}

/-- No site is before one that is before it. -/
theorem Before.asymm (first : s.Before s') : ¬ s'.Before s := by
  unfold Before at *
  omega

/-- A site before one that is not behind another is before that other. -/
theorem Before.trans_not_before (first : s.Before s') (second : ¬ s''.Before s') : s.Before s'' := by
  unfold Before at *
  omega

/-- No site is before itself. -/
@[simp] theorem not_before_self (s : Site) : ¬ s.Before s := by
  unfold Before
  omega

end Site

namespace Module

variable {m : Module} {s s' : Site} {typeIndex methodIndex : Nat}

/-- The **sites** are the places that hold a method. -/
theorem mem_sites : s ∈ m.sites ↔ m.types[s.typeIndex]? = some s.owner
    ∧ s.owner.methods[s.methodIndex]? = some s.method := by
  constructor
  · intro mem
    obtain ⟨⟨owner, ownerIndex⟩, inModule, inOwner⟩ := List.mem_flatMap.mp mem
    obtain ⟨⟨method, position⟩, inType, rfl⟩ := List.mem_map.mp inOwner
    exact ⟨List.mem_zipIdx_iff_getElem?.mp inModule, List.mem_zipIdx_iff_getElem?.mp inType⟩
  · rintro ⟨inModule, inType⟩
    exact List.mem_flatMap.mpr ⟨(s.owner, s.typeIndex), List.mem_zipIdx_iff_getElem?.mpr inModule,
      List.mem_map.mpr ⟨(s.method, s.methodIndex), List.mem_zipIdx_iff_getElem?.mpr inType, rfl⟩⟩

/-- A site holds the method at its place. -/
theorem method?_of_mem_sites (mem : s ∈ m.sites) :
    m.method? s.typeIndex s.methodIndex = some s.method := by
  obtain ⟨inModule, inType⟩ := mem_sites.mp mem
  rw [method?, inModule]
  exact inType

/-- A place that holds a method is that of a site. -/
theorem exists_site_of_method? {method : MethodDef}
    (here : m.method? typeIndex methodIndex = some method) :
    ∃ owner, (⟨typeIndex, methodIndex, owner, method⟩ : Site) ∈ m.sites := by
  obtain ⟨owner, inModule, inType⟩ := Option.bind_eq_some_iff.mp here
  exact ⟨owner, mem_sites.mpr ⟨inModule, inType⟩⟩

/-- The **bodies** are those of the sites. -/
theorem mem_bodies_iff {b : Body} : b ∈ m.bodies ↔ ∃ s ∈ m.sites, s.method.body? = some b := by
  constructor
  · intro mem
    obtain ⟨owner, inModule, inOwner⟩ := List.mem_flatMap.mp mem
    obtain ⟨method, inType, has⟩ := List.mem_filterMap.mp inOwner
    obtain ⟨typeIndex, ownerHere⟩ := List.mem_iff_getElem?.mp inModule
    obtain ⟨methodIndex, methodHere⟩ := List.mem_iff_getElem?.mp inType
    exact ⟨⟨typeIndex, methodIndex, owner, method⟩, mem_sites.mpr ⟨ownerHere, methodHere⟩, has⟩
  · rintro ⟨s, mem, has⟩
    obtain ⟨inModule, inType⟩ := mem_sites.mp mem
    have inOwner := TypeDef.mem_bodies (List.mem_of_getElem? inType) has
    exact mem_bodies (List.mem_of_getElem? inModule) inOwner

/-- The body of the method at a place is among the bodies. -/
theorem mem_bodies_of_method? {method : MethodDef} {b : Body}
    (here : m.method? typeIndex methodIndex = some method) (has : method.body? = some b) :
    b ∈ m.bodies := by
  obtain ⟨owner, mem⟩ := exists_site_of_method? here
  exact mem_bodies_iff.mpr ⟨_, mem, has⟩

/-- **The sites are in the order of declaration.** -/
theorem pairwise_sites (m : Module) : m.sites.Pairwise Site.Before := by
  rw [sites, List.pairwise_flatMap]
  refine ⟨fun owner _ => ?_, (pairwise_zipIdx m.types).imp fun earlier s mem s' mem' => ?_⟩
  · rw [List.pairwise_map]
    exact (pairwise_zipIdx owner.1.methods).imp fun earlier => .inr ⟨rfl, earlier⟩
  · obtain ⟨_, -, rfl⟩ := List.mem_map.mp mem
    obtain ⟨_, -, rfl⟩ := List.mem_map.mp mem'
    exact .inl earlier

/-- **The sites by their places**: each place holds one method, or none. -/
theorem flatMap_sites {β : Type} (f : MethodDef → List β) (typeIndex methodIndex : Nat) :
    (m.sites.flatMap fun site =>
        if typeIndex = site.typeIndex ∧ methodIndex = site.methodIndex then f site.method else [])
      = ((m.method? typeIndex methodIndex).map f).getD [] := by
  -- Within a type the place picks a method, and among the types it picks one.
  have inner (owner : TypeDef) (otherType : Nat) :
      (owner.methods.zipIdx.flatMap fun x =>
          if typeIndex = otherType ∧ methodIndex = x.2 then f x.1 else [])
        = if typeIndex = otherType then ((owner.methods[methodIndex]?).map f).getD [] else [] := by
    by_cases same : typeIndex = otherType
    · have pick := flatMap_zipIdx f owner.methods 0 methodIndex
      rw [if_pos same, ← pick]
      simp only [same, true_and, Nat.zero_add]
    · simp only [same, false_and, if_false]
      exact List.flatMap_eq_nil_iff.mpr fun _ _ => rfl
  have outer := flatMap_zipIdx (fun owner : TypeDef => ((owner.methods[methodIndex]?).map f).getD [])
    m.types 0 typeIndex
  rw [Nat.zero_add] at outer
  rw [sites, List.flatMap_assoc]
  simp only [List.flatMap_map, inner, outer, method?]
  cases m.types[typeIndex]? with
  | none => rfl
  | some owner => rfl

end Module

/-! ## (3) Methods by site -/

/-- The type at a position with its methods **changed by site**. -/
def TypeDef.mapSites (f : Site → MethodDef) (typeIndex : Nat) (owner : TypeDef) : TypeDef :=
  { owner with
    methods := owner.methods.mapIdx fun methodIndex method =>
      f ⟨typeIndex, methodIndex, owner, method⟩ }

/-- A module with its methods **changed by site**. -/
def Module.mapSites (f : Site → MethodDef) (m : Module) : Module :=
  { m with types := m.types.mapIdx (TypeDef.mapSites f) }

/-- A site with all methods of its type **changed by site**. -/
def Site.mapSites (f : Site → MethodDef) (s : Site) : Site :=
  { s with owner := s.owner.mapSites f s.typeIndex, method := f s }

namespace Module

variable {m : Module} {f g : Site → MethodDef} {typeIndex methodIndex : Nat}

/-- **The sites of a changed module** are the sites changed. -/
@[simp] theorem sites_mapSites : (m.mapSites f).sites = m.sites.map (·.mapSites f) := by
  simp only [sites, mapSites, zipIdx_mapIdx, List.flatMap_map, List.map_flatMap, List.map_map,
    TypeDef.mapSites, Function.comp_def, Site.mapSites]

/-- Two changes are the same if they do the same to each site. -/
theorem mapSites_congr (same : ∀ s ∈ m.sites, f s = g s) : m.mapSites f = m.mapSites g := by
  have types : m.types.mapIdx (TypeDef.mapSites f) = m.types.mapIdx (TypeDef.mapSites g) := by
    rw [List.mapIdx_eq_mapIdx_iff]
    intro typeIndex bound
    rw [TypeDef.mapSites, TypeDef.mapSites]
    congr 1
    rw [List.mapIdx_eq_mapIdx_iff]
    intro methodIndex inside
    exact same _ (mem_sites.mpr ⟨List.getElem?_eq_getElem bound, List.getElem?_eq_getElem inside⟩)
  rw [mapSites, types, mapSites]

/-- Methods that are changed to themselves leave a module as it is. -/
theorem mapSites_eq_self (same : ∀ s ∈ m.sites, f s = s.method) : m.mapSites f = m := by
  have keeps : m.mapSites f = m.mapSites (·.method) := mapSites_congr same
  have owner : TypeDef.mapSites (·.method) = fun _ owner => owner := by
    funext typeIndex owner
    rw [TypeDef.mapSites, mapIdx_eq_self]
  rw [keeps, mapSites, owner, mapIdx_eq_self]

/-- Changing methods twice is changing them once. -/
@[simp] theorem mapSites_mapSites : (m.mapSites f).mapSites g = m.mapSites fun s => g (s.mapSites f) := by
  have types : (m.types.mapIdx (TypeDef.mapSites f)).mapIdx (TypeDef.mapSites g)
      = m.types.mapIdx (TypeDef.mapSites fun s => g (s.mapSites f)) := by
    rw [List.mapIdx_mapIdx]
    refine congrArg (List.mapIdx · m.types) (funext fun typeIndex => funext fun owner => ?_)
    simp only [Function.comp_def, TypeDef.mapSites, Site.mapSites, List.mapIdx_mapIdx]
  rw [mapSites, mapSites, types, mapSites]

/-- The bodies of a changed module are those of changed sites. -/
theorem mem_bodies_mapSites {b : Body} :
    b ∈ (m.mapSites f).bodies ↔ ∃ s ∈ m.sites, (f s).body? = some b := by
  rw [mem_bodies_iff, sites_mapSites]
  constructor
  · rintro ⟨changed, mem, has⟩
    obtain ⟨s, before, rfl⟩ := List.mem_map.mp mem
    exact ⟨s, before, has⟩
  · rintro ⟨s, before, has⟩
    exact ⟨s.mapSites f, List.mem_map_of_mem before, has⟩

/-! ## (4) Methods by place -/

/-- A module with its methods **changed by place**. -/
def mapMethods (f : Nat → Nat → MethodDef → MethodDef) (m : Module) : Module :=
  { m with
    types := m.types.mapIdx fun typeIndex owner =>
      { owner with methods := owner.methods.mapIdx (f typeIndex) } }

variable {f g : Nat → Nat → MethodDef → MethodDef}

/-- A place is part of a site. -/
theorem mapMethods_eq_mapSites :
    m.mapMethods f = m.mapSites fun s => f s.typeIndex s.methodIndex s.method := rfl

/-- Changing methods twice is changing them once. -/
@[simp] theorem mapMethods_mapMethods :
    (m.mapMethods f).mapMethods g
      = m.mapMethods fun typeIndex methodIndex method =>
        g typeIndex methodIndex (f typeIndex methodIndex method) := by
  rw [mapMethods_eq_mapSites, mapMethods_eq_mapSites, mapSites_mapSites]
  rfl

/-- Two changes are the same if they do the same to each method at its place. -/
theorem mapMethods_congr (same : ∀ typeIndex methodIndex method,
      m.method? typeIndex methodIndex = some method →
      f typeIndex methodIndex method = g typeIndex methodIndex method) :
    m.mapMethods f = m.mapMethods g :=
  mapSites_congr fun _ mem => same _ _ _ (method?_of_mem_sites mem)

/-- Methods that are changed to themselves leave a module as it is. -/
theorem mapMethods_eq_self (same : ∀ typeIndex methodIndex method,
      m.method? typeIndex methodIndex = some method → f typeIndex methodIndex method = method) :
    m.mapMethods f = m :=
  mapSites_eq_self fun _ mem => same _ _ _ (method?_of_mem_sites mem)

/-- Other bodies are a change of methods. -/
theorem mapBodies_eq_mapMethods (h : Body → Body) :
    m.mapBodies h = m.mapMethods fun _ _ method => method.mapBody h := by
  have each {α β : Type} (k : α → β) (xs : List α) : xs.map k = xs.mapIdx fun _ x => k x := by
    refine (List.mapIdx_eq_iff.mpr fun index => ?_).symm
    rw [List.getElem?_map]
  simp only [mapBodies, mapMethods, TypeDef.mapBodies, each]

/-- Bodies that are changed in the same way leave the same module. -/
theorem mapBodies_congr {h k : Body → Body} (same : ∀ b ∈ m.bodies, h b = k b) :
    m.mapBodies h = m.mapBodies k := by
  rw [mapBodies_eq_mapMethods, mapBodies_eq_mapMethods]
  refine mapMethods_congr fun typeIndex methodIndex method here => ?_
  rw [MethodDef.mapBody, MethodDef.mapBody,
    Option.map_congr fun b has => same b (mem_bodies_of_method? here has)]

/-- Modifying the method at a place changes none at the others. -/
theorem modifyMethod_eq_mapMethods (typeIndex methodIndex : Nat) (h : MethodDef → MethodDef) :
    m.modifyMethod typeIndex methodIndex h
      = m.mapMethods fun otherType otherMethod method =>
        if otherType = typeIndex ∧ otherMethod = methodIndex then h method else method := by
  have types : (m.types.modify typeIndex fun owner =>
        { owner with methods := owner.methods.modify methodIndex h })
      = m.types.mapIdx fun otherType owner =>
        { owner with methods := owner.methods.mapIdx fun otherMethod method =>
            if otherType = typeIndex ∧ otherMethod = methodIndex then h method else method } := by
    rw [modify_eq_mapIdx, List.mapIdx_eq_mapIdx_iff]
    intro otherType bound
    by_cases here : otherType = typeIndex
    · rw [if_pos here, modify_eq_mapIdx]
      simp only [here, true_and]
    · rw [if_neg here]
      simp only [here, false_and, if_false, mapIdx_eq_self]
  rw [modifyMethod, types, mapMethods]

/-- The method at a place of a changed module. -/
@[simp] theorem method?_mapMethods (typeIndex methodIndex : Nat) :
    (m.mapMethods f).method? typeIndex methodIndex
      = (m.method? typeIndex methodIndex).map (f typeIndex methodIndex) := by
  simp only [method?, mapMethods, List.getElem?_mapIdx]
  cases m.types[typeIndex]? with
  | none => rfl
  | some owner => exact List.getElem?_mapIdx

/-- The bodies of a changed module are those of changed methods. -/
theorem mem_bodies_mapMethods {b : Body} : b ∈ (m.mapMethods f).bodies
    ↔ ∃ typeIndex methodIndex method, m.method? typeIndex methodIndex = some method
      ∧ (f typeIndex methodIndex method).body? = some b := by
  rw [mapMethods_eq_mapSites, mem_bodies_mapSites]
  constructor
  · rintro ⟨s, mem, has⟩
    exact ⟨s.typeIndex, s.methodIndex, s.method, method?_of_mem_sites mem, has⟩
  · rintro ⟨typeIndex, methodIndex, method, here, has⟩
    obtain ⟨owner, mem⟩ := exists_site_of_method? here
    exact ⟨_, mem, has⟩

/-- Types with changed methods fit if these do. -/
theorem fits_types_mapMethods (fits : Fits m.types) (each : ∀ typeIndex methodIndex method,
      m.method? typeIndex methodIndex = some method → Fits method →
      Fits (f typeIndex methodIndex method)) :
    Fits (m.mapMethods f).types := by
  obtain ⟨count, typesFit⟩ := fits
  refine ⟨by rwa [mapMethods, List.length_mapIdx], fun t mem => ?_⟩
  obtain ⟨typeIndex, bound, rfl⟩ := List.mem_mapIdx.mp mem
  obtain ⟨namespaceFits, nameFits, markersFit, methodCount, methodsFit⟩ :=
    typesFit _ (List.getElem_mem bound)
  refine ⟨namespaceFits, nameFits, markersFit, by rwa [List.length_mapIdx], fun changed inType => ?_⟩
  obtain ⟨methodIndex, inside, rfl⟩ := List.mem_mapIdx.mp inType
  refine each typeIndex methodIndex _ ?_ (methodsFit _ (List.getElem_mem inside))
  rw [method?, List.getElem?_eq_getElem bound]
  exact List.getElem?_eq_getElem inside

end Module

end Hotpatch
