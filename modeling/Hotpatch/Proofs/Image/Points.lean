import Hotpatch.Proofs.Image.Places
import Mathlib.Data.List.Perm.Subperm

/-! # Adding sequence points

What a symbols file does to a module: it adds points to the bodies at some places, entry by entry.

* **`PointEntry`**, **`Module.addEntries`** — points for the method at a place, and all entries added
  to a module.
* **`pointsAt`** — the points of all entries for one place.
* **`addEntries_eq`** — every body grows by exactly the points for its place, in their order.
* **`nodup_places`** — no two bodies with points are at one place. -/

namespace Hotpatch

open Bounded (Fits)

/-! ## (1) Entries -/

/-- A body with **more points** behind its own. -/
def Body.addPoints (points : List SequencePoint) (b : Body) : Body :=
  { b with points := b.points ++ points }

/-- An **entry** of a symbols file: the points for the method at a place. -/
structure PointEntry where
  typeIndex : Nat
  methodIndex : Nat
  points : List SequencePoint

/-- The points that all entries have **for a place**. -/
def pointsAt (entries : List PointEntry) (typeIndex methodIndex : Nat) : List SequencePoint :=
  entries.flatMap fun entry =>
    if typeIndex = entry.typeIndex ∧ methodIndex = entry.methodIndex then entry.points else []

namespace Module

variable {m : Module}

/-- **Add an entry** to a module: its points go to the body of the method at its place. -/
def addEntry (m : Module) (entry : PointEntry) : Module :=
  m.modifyMethod entry.typeIndex entry.methodIndex (·.mapBody (·.addPoints entry.points))

/-- **Add entries**, one after the other. -/
def addEntries (m : Module) (entries : List PointEntry) : Module :=
  entries.foldl addEntry m

/-- Adding no points changes nothing. -/
@[simp] theorem mapBody_addPoints_nil (method : MethodDef) : method.mapBody (·.addPoints []) = method := by
  refine MethodDef.mapBody_eq_self fun b _ => ?_
  rw [Body.addPoints, List.append_nil]

/-- Points added after others go behind these. -/
@[simp] theorem mapBody_addPoints_append (first second : List SequencePoint) (method : MethodDef) :
    (method.mapBody (·.addPoints first)).mapBody (·.addPoints second)
      = method.mapBody (·.addPoints (first ++ second)) := by
  simp only [MethodDef.mapBody, Option.map_map, Function.comp_def, Body.addPoints, List.append_assoc]

/-- **What entries do**: every body grows by exactly the points for its place, in their order. -/
theorem addEntries_eq (entries : List PointEntry) :
    m.addEntries entries = m.mapMethods fun typeIndex methodIndex =>
      (·.mapBody (·.addPoints (pointsAt entries typeIndex methodIndex))) := by
  induction entries generalizing m with
  | nil => exact (mapMethods_eq_self fun _ _ method _ => mapBody_addPoints_nil method).symm
  | cons entry entries ih =>
    rw [addEntries, List.foldl_cons, ← addEntries, ih, addEntry, modifyMethod_eq_mapMethods,
      mapMethods_mapMethods]
    refine mapMethods_congr fun typeIndex methodIndex method _ => ?_
    rw [pointsAt, pointsAt, List.flatMap_cons]
    by_cases here : typeIndex = entry.typeIndex ∧ methodIndex = entry.methodIndex
    · rw [if_pos here, if_pos here, mapBody_addPoints_append]
    · rw [if_neg here, if_neg here, List.nil_append]

/-- **The bodies of a module with entries** are its bodies, with the points for their places. -/
theorem exists_of_mem_bodies_addEntries {entries : List PointEntry} {b : Body}
    (mem : b ∈ (m.addEntries entries).bodies) :
    ∃ typeIndex methodIndex method before, m.method? typeIndex methodIndex = some method
      ∧ method.body? = some before ∧ b = before.addPoints (pointsAt entries typeIndex methodIndex) := by
  rw [addEntries_eq] at mem
  obtain ⟨typeIndex, methodIndex, method, here, has⟩ := mem_bodies_mapMethods.mp mem
  obtain ⟨before, had, rfl⟩ := Option.map_eq_some_iff.mp has
  exact ⟨typeIndex, methodIndex, method, before, here, had, rfl⟩

/-! ## (2) Entries for the points of a module -/

/-- The entries for the bodies of a module that have points, over other points. -/
def entries (f : Body → List SequencePoint) (m : Module) : List PointEntry :=
  m.pointed.map fun place => ⟨place.1, place.2.1, f place.2.2⟩

/-- **The points for a place**, among the entries for all bodies that have points. -/
theorem pointsAt_entries {f : Body → List SequencePoint} (none : ∀ b, b.points = [] → f b = [])
    (typeIndex methodIndex : Nat) :
    pointsAt (m.entries f) typeIndex methodIndex
      = ((m.method? typeIndex methodIndex).map fun method =>
          (method.body?.map f).getD []).getD [] := by
  rw [← flatMap_sites, pointsAt, entries, pointed, List.flatMap_map, List.filterMap_eq_flatMap_toList,
    List.flatMap_assoc]
  -- A body without points has no entry, and would have an empty one.
  congr 1
  funext site
  cases has : site.method.body? with
  | none => simp
  | some b =>
    by_cases empty : b.points = []
    · simp [empty, none b empty]
    · simp [empty]

/-! ## (3) Bodies with points -/

/-- A body with points is that of the method at its place. -/
theorem exists_method_of_mem_pointed {typeIndex methodIndex : Nat} {b : Body}
    (mem : (typeIndex, methodIndex, b) ∈ m.pointed) :
    ∃ owner method, m.types[typeIndex]? = some owner ∧ owner.methods[methodIndex]? = some method
      ∧ method.body? = some b ∧ b.points ≠ [] := by
  obtain ⟨site, inSites, found⟩ := List.mem_filterMap.mp mem
  obtain ⟨inModule, inType⟩ := mem_sites.mp inSites
  split at found
  · next body has =>
    split at found
    · cases found
    · next some_points =>
      obtain ⟨rfl, rfl, rfl⟩ := Option.some.inj found
      exact ⟨site.owner, site.method, inModule, inType, has,
        fun none => some_points (by rw [none]; rfl)⟩
  · cases found

/-- Bodies with points are among the bodies. -/
theorem mem_bodies_of_mem_pointed {typeIndex methodIndex : Nat} {b : Body}
    (mem : (typeIndex, methodIndex, b) ∈ m.pointed) : b ∈ m.bodies := by
  obtain ⟨owner, method, inModule, inType, has, -⟩ := exists_method_of_mem_pointed mem
  have inOwner := TypeDef.mem_bodies (List.mem_of_getElem? inType) has
  exact mem_bodies (List.mem_of_getElem? inModule) inOwner

/-- What is picked from a site, because its body has points, has the place of the site. -/
theorem place_of_pointed {s : Site} {place : Nat × Nat × Body} (found : (match s.method.body? with
      | some body => if body.points.isEmpty then none else some (s.typeIndex, s.methodIndex, body)
      | none => none) = some place) : (place.1, place.2.1) = (s.typeIndex, s.methodIndex) := by
  split at found
  · split at found
    · cases found
    · rw [← Option.some.inj found]
  · cases found

/-- **No two bodies with points are at one place.** -/
theorem nodup_places (m : Module) : (m.pointed.map fun place => (place.1, place.2.1)).Nodup := by
  have sites : m.sites.Pairwise fun s s' =>
      (s.typeIndex, s.methodIndex) ≠ (s'.typeIndex, s'.methodIndex) := by
    refine m.pairwise_sites.imp fun earlier same => ?_
    obtain ⟨sameType, sameMethod⟩ := Prod.mk.inj same
    unfold Site.Before at earlier
    omega
  rw [List.Nodup, List.pairwise_map, pointed, List.pairwise_filterMap]
  refine sites.imp fun {s s'} differ place found place' found' => ?_
  rw [place_of_pointed found, place_of_pointed found']
  exact differ

/-- **There are no more bodies with points than entries** that were added, if there were none before.
-/
theorem length_pointed_addEntries_le (noPoints : ∀ b ∈ m.bodies, b.points = [])
    (entries : List PointEntry) : (m.addEntries entries).pointed.length ≤ entries.length := by
  -- A body that has points got them from an entry for its place.
  have among : ((m.addEntries entries).pointed.map fun place => (place.1, place.2.1))
      ⊆ entries.map fun entry => (entry.typeIndex, entry.methodIndex) := by
    intro key mem
    obtain ⟨⟨typeIndex, methodIndex, b⟩, here, rfl⟩ := List.mem_map.mp mem
    obtain ⟨owner, changed, inModule, inType, has, some_points⟩ := exists_method_of_mem_pointed here
    have found : (m.addEntries entries).method? typeIndex methodIndex = some changed := by
      rw [method?, inModule]
      exact inType
    rw [addEntries_eq, method?_mapMethods] at found
    obtain ⟨method, before, rfl⟩ := Option.map_eq_some_iff.mp found
    obtain ⟨b, had, rfl⟩ := Option.map_eq_some_iff.mp has
    have added : pointsAt entries typeIndex methodIndex ≠ [] := by
      intro none
      rw [Body.addPoints, none, noPoints b (mem_bodies_of_method? before had)] at some_points
      exact some_points rfl
    obtain ⟨point, hit⟩ := List.exists_mem_of_ne_nil _ added
    obtain ⟨entry, inEntries, there⟩ := List.mem_flatMap.mp hit
    split at there
    · next same => exact List.mem_map.mpr ⟨entry, inEntries, by rw [same.1, same.2]⟩
    · cases there
  have fewer := (List.subperm_of_subset (nodup_places _) among).length_le
  rwa [List.length_map, List.length_map] at fewer

end Module

end Hotpatch
