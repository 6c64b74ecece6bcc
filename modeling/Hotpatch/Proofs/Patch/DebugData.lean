import Hotpatch.Proofs.Patch.Outcomes

/-! # Debug data of patched modules

The sequence points of a module that was read, instrumented and written again.

* **`Body.Moved`** — a sequence point at the same instruction, some positions further on.
* **`Settled.moved_patched`** — so are all points of a patched body.
* **`Site.inserted`** — the instructions that are put in front of a method.
* **`Site.shiftedBytes?`** — the points of a method by their offsets before, and the bytes put in front.
* **`Module.points_of_instrumented`** — the whole way: the points are moved in what is read back, and
  shifted in the symbols that are written. -/

namespace Hotpatch

open Bounded (Fits)
open ModuleImage (entryBytes)

/-! ## (1) Bodies -/

namespace Body

/-- A sequence point that is **moved**: it is at an instruction that is `k` positions further on in the
layout than that of the old point, which is the same but that its targets are as many positions further
on. -/
structure Moved (old new : Body) (k : Nat) (point point' : SequencePoint) : Prop where
  line : point'.line = point.line
  column : point'.column = point.column
  anchor : ∃ position placed placed', old.code[position]? = some placed
    ∧ placed.handle = point.instruction ∧ new.code[position + k]? = some placed'
    ∧ placed'.handle = point'.instruction
    ∧ placed'.instruction.relabel new.position?
      = placed.instruction.relabel fun target => (old.position? target).map (· + k)

variable {b : Body} {p : Preamble}

/-- Points that stay are moved by no positions. -/
theorem Canonical.moved_self (canonical : b.Canonical) :
    List.Forall₂ (Moved b b 0) b.points b.points := by
  rw [List.forall₂_same]
  intro point mem
  have here := List.getElem?_eq_getElem (canonical.points point mem)
  have handle := canonical.handles _ _ here
  refine ⟨rfl, rfl, _, _, _, here, handle, here, handle, Instruction.relabel_congr fun target _ => ?_⟩
  exact (Option.map_id' (x := b.position? target)).symm

/-- **The points of a patched body** are moved by as many positions as there are instructions in the
preamble, when the body is written and read. -/
theorem Settled.moved_patched (settled : b.Settled)
    (below : ∀ i ∈ p.instructions, ∀ target ∈ i.targets, target.index < b.code.length) :
    List.Forall₂ (Moved b (b.patched p).renumber p.instructions.length) b.points
      (b.patched p).renumber.points := by
  have wf := settled.wellFormed
  have rank {handle : Handle} (inside : handle.index < b.code.length) :
      (b.patched p).rank handle = ⟨p.instructions.length + handle.index⟩ := by
    rw [wf.rank_patched settled.current below inside, settled.rank_eq inside]
  have length : (b.patched p).renumber.code.length = p.instructions.length + b.code.length := by
    rw [renumber, List.length_mapIdx, length_patched]
  have canonical : (b.patched p).renumber.Canonical := by
    refine (wf.patched below).canonical_renumber current_patched fun point mem => ?_
    have inside := settled.points point mem
    rw [length_patched]
    omega
  show List.Forall₂ _ b.points (b.points.map fun point =>
    { point with instruction := (b.patched p).rank point.instruction })
  rw [List.forall₂_map_right_iff, List.forall₂_same]
  intro point mem
  have inside := settled.points point mem
  have here := List.getElem?_eq_getElem inside
  have there : (b.patched p).renumber.code[point.instruction.index + p.instructions.length]?
      = some ⟨⟨point.instruction.index + p.instructions.length⟩,
        p.size + (b.code[point.instruction.index]).offset,
        (b.code[point.instruction.index]).instruction.relabel (b.patched p).rank⟩ := by
    rw [getElem?_renumber, Nat.add_comm, getElem?_patched settled.current, here]
    rfl
  refine ⟨rfl, rfl, _, _, _, here, settled.handles _ _ here, there, ?_, ?_⟩
  · rw [rank inside, Nat.add_comm]
  · -- The targets are as much further on as the instruction itself.
    rw [Instruction.relabel_relabel]
    refine Instruction.relabel_congr fun target hit => ?_
    have bound := settled.targets _ (List.mem_of_getElem? here) target hit
    rw [rank bound, canonical.position?_eq (by rw [length]; exact Nat.add_lt_add_left bound _),
      settled.position?_eq bound, Option.map_some, Nat.add_comm]

end Body

/-! ## (2) Methods -/

namespace Site

variable {s : Site} {markers : MarkerNames} {registry : PatchRegistry}

/-- The instructions that are **inserted** in front of a method; none if it is not selected. -/
def inserted (markers : MarkerNames) (registry : PatchRegistry) (s : Site) :
    List (Instruction Handle) :=
  if markers.Selects s then
    match s.preamble registry with
    | .ok p => p.instructions
    | .error _ => []
  else []

/-- The offset of a sequence point **shifted** by the bytes that are inserted. -/
def shiftedOffset (markers : MarkerNames) (registry : PatchRegistry) (s : Site) (b : Body)
    (point : SequencePoint) : Nat :=
  b.offsetOf point.instruction + ((s.inserted markers registry).map Instruction.width).sum

/-- The **entry** in the symbols file for a method that has sequence points, by the shifted offsets. -/
def shiftedBytes? (markers : MarkerNames) (registry : PatchRegistry) (s : Site) :
    Option (List UInt8) :=
  match s.method.body? with
  | some b =>
    if b.points.isEmpty then none
    else some (entryBytes s.typeIndex s.methodIndex (b.points.map fun point =>
      ⟨UInt32.ofNat (s.shiftedOffset markers registry b point), point.line, point.column⟩))
  | none => none

/-- **The two kinds of methods**: those that are patched with what is inserted, and those that stay. -/
theorem onSelected_patched (made : markers.Selects s → ∃ p, s.preamble registry = .ok p) :
    (∃ p, s.preamble registry = .ok p ∧ s.inserted markers registry = p.instructions
        ∧ markers.onSelected (·.patched registry) s = s.method.mapBody (·.patched p))
      ∨ (s.inserted markers registry = []
        ∧ markers.onSelected (·.patched registry) s = s.method) := by
  rw [MarkerNames.onSelected, inserted]
  by_cases selects : markers.Selects s
  · obtain ⟨p, preamble⟩ := made selects
    refine .inl ⟨p, preamble, ?_⟩
    rw [if_pos selects, if_pos selects, patched, preamble]
    exact ⟨rfl, rfl⟩
  · rw [if_neg selects, if_neg selects]
    exact .inr ⟨rfl, rfl⟩

/-- The same methods have bodies. -/
theorem isSome_onSelected (made : markers.Selects s → ∃ p, s.preamble registry = .ok p) :
    ((markers.onSelected (·.patched registry) s).body?).isSome = s.method.body?.isSome := by
  rcases onSelected_patched made with ⟨p, -, -, method⟩ | ⟨-, method⟩
  · rw [method, MethodDef.mapBody, Option.isSome_map]
  · rw [method]

section Patched

variable (settled : ∀ b, s.method.body? = some b → b.Settled)
  (made : markers.Selects s → ∃ p, s.preamble registry = .ok p)

include settled made

/-- **The points of a method of a patched module** are moved by as many positions as instructions are
inserted. -/
theorem moved_onSelected :
    Option.Rel (fun b b' => List.Forall₂ (b.Moved b' (s.inserted markers registry).length)
        b.points b'.points)
      s.method.body? ((markers.onSelected (·.patched registry) s).mapBody Body.renumber).body? := by
  rcases onSelected_patched made with ⟨p, preamble, inserted, method⟩ | ⟨inserted, method⟩
  · rw [inserted, method, MethodDef.mapBody, MethodDef.mapBody]
    cases has : s.method.body? with
    | none => exact .none
    | some b =>
      have below := targets_lt_of_preamble preamble has (settled b has).wellFormed
      exact .some ((settled b has).moved_patched below)
  · rw [inserted, method, MethodDef.mapBody]
    cases has : s.method.body? with
    | none => exact .none
    | some b =>
      rw [Option.map_some, (settled b has).renumber_eq]
      exact .some (settled b has).moved_self

/-- **The points that are written** have the shifted offsets. -/
theorem writtenPoint_onSelected {b b' : Body} (has : s.method.body? = some b)
    (has' : (markers.onSelected (·.patched registry) s).body? = some b') :
    b'.points = b.points ∧ ∀ point ∈ b.points,
      b'.offsetOf point.instruction = s.shiftedOffset markers registry b point
        ∧ point.instruction.index < b'.code.length := by
  rcases onSelected_patched made with ⟨p, preamble, inserted, method⟩ | ⟨inserted, method⟩
  · rw [method, MethodDef.mapBody, has, Option.map_some, Option.some.injEq] at has'
    obtain rfl := has'
    have wf := (settled b has).wellFormed
    have below := targets_lt_of_preamble preamble has wf
    refine ⟨rfl, fun point mem => ?_⟩
    have inside := (settled b has).points point mem
    rw [wf.offsetOf_patched (settled b has).current below inside, shiftedOffset, inserted,
      Body.length_patched, Preamble.size]
    omega
  · rw [method, has, Option.some.injEq] at has'
    obtain rfl := has'
    refine ⟨rfl, fun point mem => ⟨?_, (settled b has).points point mem⟩⟩
    rw [shiftedOffset, inserted]
    rfl

/-- **The entry of a method of a patched module** has the shifted offsets. -/
theorem placeBytes_onSelected :
    ((match (markers.onSelected (·.patched registry) s).body? with
      | some b => if b.points.isEmpty then none else some (s.typeIndex, s.methodIndex, b)
      | none => none).map Module.placeBytes) = s.shiftedBytes? markers registry := by
  have hasBody := isSome_onSelected made
  rw [shiftedBytes?]
  cases has : s.method.body? with
  | none =>
    rw [has, Option.isSome_none, Option.isSome_eq_false_iff, Option.isNone_iff_eq_none] at hasBody
    rw [hasBody]
    rfl
  | some b =>
    rw [has] at hasBody
    obtain ⟨b', has'⟩ := Option.isSome_iff_exists.mp hasBody
    obtain ⟨points, offsets⟩ := writtenPoint_onSelected settled made has has'
    rw [has']
    dsimp only
    rw [points]
    split
    · rfl
    · rw [Option.map_some, Module.placeBytes]
      dsimp only
      rw [points]
      congr 2
      refine List.map_congr_left fun point mem => ?_
      rw [Body.writtenPoint, (offsets point mem).1]

end Patched

end Site

/-! ## (3) Modules -/

namespace Module

variable {m : Module} {markers : MarkerNames} {registry : PatchRegistry} {names : List String}
  {image symbols bytes : List UInt8}

/-- The sites of a renumbered module. -/
@[simp] theorem sites_renumber :
    m.renumber.sites = m.sites.map (·.mapSites fun s => s.method.mapBody Body.renumber) := by
  rw [renumber, mapBodies_eq_mapMethods, mapMethods_eq_mapSites, sites_mapSites]

/-- **The entries that are written** for a patched module have the shifted offsets. -/
theorem map_placeBytes_pointed (settled : ∀ b ∈ m.bodies, b.Settled)
    (made : ∀ s ∈ m.selected markers, ∃ p, s.preamble registry = .ok p) :
    (m.patched markers registry).pointed.map placeBytes
      = m.sites.filterMap (·.shiftedBytes? markers registry) := by
  rw [pointed, sites_patched, List.filterMap_map, List.map_filterMap]
  refine List.filterMap_congr fun s mem => ?_
  exact Site.placeBytes_onSelected (settled_of_mem_sites settled mem) fun selects =>
    made s (mem_selected.mpr ⟨mem, selects⟩)

/-- **Shifted offsets fit** into the four bytes they are written in, if the patched module can be
written. -/
theorem shiftedOffset_lt (settled : ∀ b ∈ m.bodies, b.Settled)
    (made : ∀ s ∈ m.selected markers, ∃ p, s.preamble registry = .ok p)
    (written : (m.patched markers registry).write = .ok bytes) {s : Site} (mem : s ∈ m.sites) {b : Body}
    (has : s.method.body? = some b) {point : SequencePoint} (hit : point ∈ b.points) :
    s.shiftedOffset markers registry b point < 4294967296 := by
  have wfPatched := wellFormed_patched settled made
  have kind (selects : markers.Selects s) : ∃ p, s.preamble registry = .ok p :=
    made s (mem_selected.mpr ⟨mem, selects⟩)
  have hasBody := Site.isSome_onSelected kind
  rw [has] at hasBody
  obtain ⟨b', has'⟩ := Option.isSome_iff_exists.mp hasBody
  -- It is the offset of an instruction in code that could be written.
  have inBodies := mem_bodies_patched.mpr ⟨s, mem, has'⟩
  obtain ⟨-, offsets⟩ :=
    Site.writtenPoint_onSelected (settled_of_mem_sites settled mem) kind has has'
  obtain ⟨current, size⟩ :=
    Body.current_of_fault?_eq_none (fault?_eq_none_of_write wfPatched written inBodies)
  have start := (wfPatched b' inBodies).offsetOf_lt current (offsets point hit).2
  rw [(offsets point hit).1] at start
  rw [Body.maxCodeSize] at size
  omega

/-- **Debug data survives.** For a module that was read with symbols and then instrumented, where no
length is too large and fewer than 2²⁴ different strings, types and methods are named: if it can be
written then its symbols can be too, and they are those of the module as it was read, at offsets that
are larger by the bytes inserted into the method. And what is read from both has the same methods, each
with the same points in the same order, moved by the number of instructions inserted. -/
theorem points_of_instrumented (read : ofFiles image (some symbols) = .ok m)
    (done : (m.instrument markers registry).result = .ok (.instrumented names))
    (fits : Fits (m.instrument markers registry).module)
    (strings : (m.instrument markers registry).module.operands.strings.dedup.length < 16777216)
    (types : (m.instrument markers registry).module.operands.types.dedup.length < 16777216)
    (methods : (m.instrument markers registry).module.operands.methods.dedup.length < 16777216)
    (written : (m.instrument markers registry).module.write = .ok bytes) :
    ∃ symbols' m', (m.instrument markers registry).module.writeSymbols = .ok symbols'
      ∧ ofFiles bytes (some symbols') = .ok m'
      ∧ symbols' = symbolsMagic ++ Binary.write (m.document?.getD "")
        ++ writeLength (m.sites.filterMap (·.shiftedBytes? markers registry)).length
        ++ (m.sites.filterMap (·.shiftedBytes? markers registry)).flatten
      ∧ (∀ s ∈ m.sites, ∀ b, s.method.body? = some b → ∀ point ∈ b.points,
        s.shiftedOffset markers registry b point < 4294967296)
      ∧ List.Forall₂ (fun s s' => s'.typeIndex = s.typeIndex ∧ s'.methodIndex = s.methodIndex
          ∧ Option.Rel (fun b b' => List.Forall₂ (b.Moved b' (s.inserted markers registry).length)
              b.points b'.points) s.method.body? s'.method.body?)
        m.sites m'.sites := by
  have settled := settled_of_ofFiles read
  have wf : m.WellFormed := fun b mem => (settled b mem).wellFormed
  obtain ⟨-, made, -, module⟩ := exists_of_instrumented wf done
  obtain ⟨⟨symbols', writtenSymbols⟩, -⟩ := write_of_instrumented settled done
  rw [module] at fits strings types methods written writtenSymbols ⊢
  have wfPatched := wellFormed_patched settled made
  have small := TokenTable.small_extend_empty strings types methods
  have back := ofFiles_of_write wfPatched fits small written writtenSymbols
  have entries := map_placeBytes_pointed settled made
  refine ⟨symbols', _, writtenSymbols, back, ?_,
    fun s mem b has point hit => shiftedOffset_lt settled made written mem has hit, ?_⟩
  · have document : (m.patched markers registry).document? = m.document? := by
      rw [patched, sign_eq]
      rfl
    rw [((writeSymbols_eq_ok_iff wfPatched).mp writtenSymbols).2, document, ← entries, List.length_map]
  · have sites : (m.patched markers registry).renumber.sites = m.sites.map fun s =>
          (s.mapSites (markers.onSelected (·.patched registry))).mapSites
            fun s => s.method.mapBody Body.renumber := by
      rw [sites_renumber, sites_patched, List.map_map]
      rfl
    show List.Forall₂ _ m.sites (m.patched markers registry).renumber.sites
    rw [sites, List.forall₂_map_right_iff, List.forall₂_same]
    exact fun s mem => ⟨rfl, rfl, Site.moved_onSelected (settled_of_mem_sites settled mem)
      fun selects => made s (mem_selected.mpr ⟨mem, selects⟩)⟩

/-- An image with a marked method and one that is not; a constant in the first could be shorter. -/
def linedImage : List UInt8 :=
  imageMagic ++ [1, 0] ++ [1, 0, 0, 0, 77] ++ [0, 0, 0, 0] ++ [0, 0, 0, 0]
    ++ [0, 0, 0, 0] ++ [0, 0, 0, 0] ++ [0, 0, 0, 0]
    ++ [1, 0, 0, 0] ++ [0, 0, 0, 0] ++ [1, 0, 0, 0, 84] ++ [0, 0, 0, 0] ++ [0, 0, 0, 0]
    ++ [2, 0, 0, 0] ++ [1, 0, 0, 0, 97] ++ [0, 0] ++ [0, 0, 0, 0] ++ [1]
    ++ [1, 0, 0, 0, 6, 0, 0, 0, 72, 111, 116, 102, 105, 120]
    ++ [1] ++ [1, 0] ++ [0] ++ [0, 0, 0, 0] ++ [7, 0, 0, 0, 0x20, 1, 0, 0, 0, 0x26, 0x2a]
    ++ [1, 0, 0, 0, 98] ++ [0, 0] ++ [0, 0, 0, 0] ++ [1] ++ [0, 0, 0, 0]
    ++ [1] ++ [0, 0] ++ [0] ++ [0, 0, 0, 0] ++ [1, 0, 0, 0, 0x2a]

/-- Symbols for the image, with two points in the first method and one in the second. -/
def linedSymbols : List UInt8 :=
  symbolsMagic ++ [1, 0, 0, 0, 109] ++ [2, 0, 0, 0]
    ++ [0, 0, 0, 0, 0, 0, 0, 0, 2, 0, 0, 0]
    ++ [0, 0, 0, 0, 3, 0, 0, 0, 1, 0] ++ [6, 0, 0, 0, 4, 0, 0, 0, 2, 0]
    ++ [0, 0, 0, 0, 1, 0, 0, 0, 1, 0, 0, 0] ++ [0, 0, 0, 0, 7, 0, 0, 0, 1, 0]

/-- The module they have, for some code in the marked method. -/
def linedWith (maxStack : UInt16) (code : List Placed) : Module :=
  { name := "M"
    references := []
    markers := []
    types := [⟨"", "T", ⟨0⟩, [], [
      ⟨"a", ⟨0⟩, [], .builtin .void, ["Hotfix"],
        some ⟨maxStack, false, [], [⟨⟨0⟩, 3, 1⟩, ⟨⟨2⟩, 4, 2⟩], code⟩⟩,
      ⟨"b", ⟨0⟩, [], .builtin .void, [],
        some ⟨0, false, [], [⟨⟨0⟩, 7, 1⟩], [⟨⟨0⟩, 0, .plain .ret⟩]⟩⟩]⟩]
    document? := some "m" }

/-- The module they have. -/
def lined : Module :=
  linedWith 1 [⟨⟨0⟩, 0, .ldcI4 1⟩, ⟨⟨1⟩, 1, .plain .pop⟩, ⟨⟨2⟩, 2, .plain .ret⟩]

/-- Its points move with their instructions when it is patched, written and read again. -/
theorem points_of_instrumented_lined : ofFiles linedImage (some linedSymbols) = .ok lined
      ∧ (lined.instrument .standard (.standard "R" "R")).result = .ok (.instrumented ["T::a"])
      ∧ ∃ bytes symbols' m', (lined.instrument .standard (.standard "R" "R")).module.write = .ok bytes
        ∧ (lined.instrument .standard (.standard "R" "R")).module.writeSymbols = .ok symbols'
        ∧ ofFiles bytes (some symbols') = .ok m'
        ∧ List.Forall₂ (fun s s' => Option.Rel (fun b b' => List.Forall₂
            (b.Moved b' (s.inserted .standard (.standard "R" "R")).length) b.points b'.points)
          s.method.body? s'.method.body?) lined.sites m'.sites := by
  have read : ofFiles linedImage (some linedSymbols) = .ok lined := by decide +kernel
  have done : (lined.instrument .standard (.standard "R" "R")).result
      = .ok (.instrumented ["T::a"]) := by decide +kernel
  have patched : (lined.instrument .standard (.standard "R" "R")).module
      = { linedWith 3 [⟨⟨3⟩, 0, .ldstr "T"⟩, ⟨⟨4⟩, 5, .ldstr "a"⟩,
          ⟨⟨5⟩, 10, .invoke .call (PatchRegistry.standard "R" "R").hasPatch⟩,
          ⟨⟨6⟩, 15, .branch .long .isFalse ⟨0⟩⟩, ⟨⟨7⟩, 20, .ldstr "T"⟩, ⟨⟨8⟩, 25, .ldstr "a"⟩,
          ⟨⟨9⟩, 30, .ldcI4 0⟩, ⟨⟨10⟩, 31, .typed .newarr .object⟩,
          ⟨⟨11⟩, 36, .invoke .call (PatchRegistry.standard "R" "R").callPatch⟩,
          ⟨⟨12⟩, 41, .plain .pop⟩, ⟨⟨13⟩, 42, .plain .ret⟩,
          ⟨⟨0⟩, 43, .ldcI4 1⟩, ⟨⟨1⟩, 44, .plain .pop⟩, ⟨⟨2⟩, 45, .plain .ret⟩] with
        references := ["R"]
        markers := ["HotfixInjected"] } := by decide +kernel
  have fits : Fits (lined.instrument .standard (.standard "R" "R")).module := by
    rw [patched]
    simp [Fits, linedWith, TypeSig.Fits, pointed, sites, PatchRegistry.standard,
      PatchRegistry.hasPatchSignature, PatchRegistry.callPatchSignature, TypeSig.string,
      TypeSig.object, TypeSig.bool]
    decide
  obtain ⟨-, writable, -⟩ := write_of_instrumented (settled_of_ofFiles read) done
  obtain ⟨bytes, written⟩ := writable.mpr (by decide +kernel)
  obtain ⟨symbols', m', writtenSymbols, back, -, -, moved⟩ := points_of_instrumented read done fits
    (by decide +kernel) (by decide +kernel) (by decide +kernel) written
  exact ⟨read, done, bytes, symbols', m', written, writtenSymbols, back,
    moved.imp fun _ _ same => same.2.2⟩

end Module

end Hotpatch
