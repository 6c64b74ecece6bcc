import Hotpatch.Proofs.Image.Readable
import Hotpatch.Proofs.Image.RoundTrip

/-! # Normal modules

Modules that are written and read as they are. All modules that are read are normal, unless a body of
theirs has too many points.

* **`Module.Normal`** — settled bodies, and nothing that is too long or too much to be written.
* **`Normal.exists_write`**, **`Normal.write_eq_codeTooLarge`** — such a module can be written unless
  a body is too large.
* **`Normal.renumber_eq`**, **`imaged_eq_self`** — what is written is read as the same module.
* **`Module.settled_of_read`**, **`Module.normal_of_read`** — the modules that are read are normal. -/

namespace Hotpatch

open Bounded (Fits)

namespace Module

/-- A **normal** module: its bodies are settled, its parts fit, and its operands can be named by
tokens. -/
structure Normal (m : Module) : Prop where
  settled : ∀ b ∈ m.bodies, b.Settled
  fits : Fits m
  small : (TokenTable.empty.extend m.operands).Small

variable {m : Module}

/-- A module **without debug data** is imaged as it is renumbered. -/
theorem imaged_eq_renumber (noDocument : m.document? = none) (noPoints : ∀ b ∈ m.bodies, b.points = []) :
    m.imaged.module = m.renumber := by
  have bodies : m.mapBodies Body.imaged = m.renumber := mapBodies_congr fun b mem => by
    rw [Body.imaged, Body.renumber, noPoints b mem]
    rfl
  rw [imaged, bodies, ← noDocument]
  rfl

/-- With canonical bodies, it is as it is imaged. -/
theorem imaged_eq_self (canonical : ∀ b ∈ m.bodies, b.Canonical) (noDocument : m.document? = none)
    (noPoints : ∀ b ∈ m.bodies, b.points = []) : m.imaged.module = m := by
  rw [imaged_eq_renumber noDocument noPoints]
  exact mapBodies_eq_self fun b mem => (canonical b mem).renumber_eq

namespace Normal

/-! ## (1) Writing -/

/-- The bodies of a normal module are well formed. -/
theorem wellFormed (normal : m.Normal) : m.WellFormed :=
  fun b mem => (normal.settled b mem).wellFormed

/-- **The symbols** of a normal module can be written. -/
theorem exists_writeSymbols (normal : m.Normal) : ∃ symbols, m.writeSymbols = .ok symbols := by
  refine ⟨_, (writeSymbols_eq_ok_iff normal.wellFormed).mpr ⟨?_, rfl⟩⟩
  rintro ⟨typeIndex, methodIndex, b⟩ mem
  have settled := normal.settled b (mem_bodies_of_mem_pointed mem)
  exact ⟨settled.current, settled.points⟩

/-- **A normal module can be written** if no body is too large. -/
theorem exists_write (normal : m.Normal) (size : ∀ b ∈ m.bodies, b.codeSize ≤ Body.maxCodeSize) :
    ∃ bytes, m.write = .ok bytes := by
  rw [exists_write_iff normal.wellFormed, fault?, List.findSome?_eq_none_iff]
  intro b mem
  rw [(normal.settled b mem).fault?_eq, if_neg (Nat.not_lt.mpr (size b mem))]

/-- **A body that is too large** is the only reason not to write a normal module. -/
theorem write_eq_codeTooLarge (normal : m.Normal)
    (size : ∃ b ∈ m.bodies, Body.maxCodeSize < b.codeSize) :
    ∃ b ∈ m.bodies, Body.maxCodeSize < b.codeSize ∧ m.write = .error (.codeTooLarge b.codeSize) := by
  obtain ⟨large, mem, size⟩ := size
  have some_fault : m.fault?.isSome := by
    rw [fault?, List.findSome?_isSome_iff]
    refine ⟨large, mem, ?_⟩
    rw [(normal.settled large mem).fault?_eq, if_pos size]
    rfl
  obtain ⟨fault, has⟩ := Option.isSome_iff_exists.mp some_fault
  -- The fault is that of the first body with one, and it can only be its size.
  obtain ⟨b, inModule, first⟩ := List.exists_of_findSome?_eq_some has
  rw [(normal.settled b inModule).fault?_eq] at first
  split at first
  · next large =>
    rw [← Option.some.inj first] at has
    exact ⟨b, inModule, large, Module.write_eq_error normal.wellFormed has⟩
  · cases first

/-! ## (2) Reading -/

/-- A normal module is the same when renumbered. -/
theorem renumber_eq (normal : m.Normal) : m.renumber = m :=
  mapBodies_eq_self fun b mem => (normal.settled b mem).renumber_eq

end Normal

/-! ## (3) Modules that are read -/

/-- Tokens that name the operands of all instructions name those of the module. -/
theorem names_operands {tokens : TokenTable}
    (each : ∀ b ∈ m.bodies, ∀ placed ∈ b.code, tokens.Names placed.instruction.operands) :
    tokens.Names m.operands := by
  refine TokenTable.names_collect fun t inModule => TokenTable.names_collect fun method inType => ?_
  rw [MethodDef.operands]
  cases has : method.body? with
  | none => exact tokens.names_empty
  | some b =>
    exact TokenTable.names_collect (each b (mem_bodies inModule (TypeDef.mem_bodies inType has)))

/-- Operands that are all named by some tokens make a small table. -/
theorem small_of_names {tokens operands : TokenTable} (names : tokens.Names operands) :
    (TokenTable.empty.extend operands).Small :=
  TokenTable.small_extend_empty (TokenTable.length_dedup_lt names.strings)
    (TokenTable.length_dedup_lt names.types) (TokenTable.length_dedup_lt names.methods)

end Module

/-- An offset leads to an instruction of the body at the place. -/
theorem ModuleImage.lt_of_handleAt? {image : ModuleImage} {typeIndex methodIndex offset : Nat}
    {method : MethodDef} {b : Body} {handle : Handle} (canonical : b.Canonical)
    (here : image.module.method? typeIndex methodIndex = some method) (has : method.body? = some b)
    (found : image.handleAt? typeIndex methodIndex offset = some handle) :
    handle.index < b.code.length := by
  rw [handleAt?, here] at found
  obtain ⟨cuts, -, found⟩ := Option.bind_eq_some_iff.mp found
  obtain ⟨cut?, -, found⟩ := Option.bind_eq_some_iff.mp found
  obtain ⟨cut, -, found⟩ := Option.bind_eq_some_iff.mp found
  obtain ⟨other, this, found⟩ := Option.bind_eq_some_iff.mp found
  obtain rfl := Option.some.inj this
  obtain ⟨body, same, found⟩ := Option.bind_eq_some_iff.mp found
  obtain rfl := Option.some.inj (has.symm.trans same)
  obtain ⟨position, -, found⟩ := Option.bind_eq_some_iff.mp found
  obtain ⟨placed, there, rfl⟩ := Option.map_eq_some_iff.mp found
  rw [canonical.handles position placed there]
  exact (List.getElem?_eq_some_iff.mp there).1

/-- A settled body stays settled when points are added at its instructions. -/
theorem Body.Settled.addPoints {b : Body} (settled : b.Settled) {points : List SequencePoint}
    (inside : ∀ point ∈ points, point.instruction.index < b.code.length) :
    (b.addPoints points).Settled := by
  obtain ⟨⟨handles, current, targets, before⟩, within⟩ := settled
  refine ⟨⟨handles, current, targets, fun point mem => ?_⟩, within⟩
  exact (List.mem_append.mp mem).elim (before point) (inside point)

namespace Module

section Read

variable {image : ModuleImage} (yields : ModuleImage.read.Yields image) {entries : List PointEntry}

include yields

/-- **The bodies of what is read are settled**: those of an image with entries at instructions that are
found by an offset. -/
theorem settled_of_read (found : ∀ entry ∈ entries, ∀ point ∈ entry.points,
      ∃ offset, image.handleAt? entry.typeIndex entry.methodIndex offset = some point.instruction)
    {b : Body} (mem : b ∈ (image.module.addEntries entries).bodies) : b.Settled := by
  obtain ⟨-, -, tokens, fresh⟩ := ModuleImage.fresh_of_read yields
  obtain ⟨typeIndex, methodIndex, method, read, here, has, rfl⟩ := exists_of_mem_bodies_addEntries mem
  have settled := (fresh read (mem_bodies_of_method? here has)).settled
  refine settled.addPoints fun point hit => ?_
  obtain ⟨entry, inEntries, there⟩ := List.mem_flatMap.mp hit
  split at there
  · next same =>
    obtain ⟨offset, handle⟩ := found entry inEntries point there
    rw [← same.1, ← same.2] at handle
    exact ModuleImage.lt_of_handleAt? settled.toCanonical here has handle
  · cases there

/-- **What is read is normal**: the module of an image with entries at instructions that are found by
an offset. -/
theorem normal_of_read (count : entries.length < 4294967296)
    (found : ∀ entry ∈ entries, ∀ point ∈ entry.points,
      ∃ offset, image.handleAt? entry.typeIndex entry.methodIndex offset = some point.instruction)
    {document? : Option String} (document : Fits document?)
    (few : ∀ b ∈ (image.module.addEntries entries).bodies, b.points.length < 4294967296) :
    ({ image.module.addEntries entries with document? } : Module).Normal := by
  obtain ⟨⟨nameFits, referencesFit, markersFit, typesFit⟩, -, tokens, fresh⟩ :=
    ModuleImage.fresh_of_read yields
  have named : tokens.Names (image.module.addEntries entries).operands := by
    refine names_operands fun b mem => ?_
    obtain ⟨typeIndex, methodIndex, method, read, here, has, rfl⟩ :=
      exists_of_mem_bodies_addEntries mem
    exact (fresh read (mem_bodies_of_method? here has)).names
  have types : Fits (image.module.addEntries entries).types := by
    rw [addEntries_eq] at few ⊢
    refine fits_types_mapMethods typesFit fun typeIndex methodIndex method here fits => ?_
    obtain ⟨nameFits, parametersFit, returnTypeFits, markersFit, bodyFits⟩ := fits
    refine ⟨nameFits, parametersFit, returnTypeFits, markersFit, fun b has => ?_⟩
    have points := few b (mem_bodies_mapMethods.mpr ⟨typeIndex, methodIndex, method, here, has⟩)
    obtain ⟨read, had, rfl⟩ := Option.map_eq_some_iff.mp has
    obtain ⟨localsFit, -, operandsFit⟩ := bodyFits read had
    exact ⟨localsFit, points, operandsFit⟩
  -- No body had points before, so each that has some now has an entry.
  have pointed : (image.module.addEntries entries).pointed.length < 4294967296 := by
    have fewer := length_pointed_addEntries_le (fun b mem => (fresh b mem).noPoints) entries
    omega
  have others : (image.module.addEntries entries).name = image.module.name
      ∧ (image.module.addEntries entries).references = image.module.references
      ∧ (image.module.addEntries entries).markers = image.module.markers := by
    rw [addEntries_eq]
    exact ⟨rfl, rfl, rfl⟩
  obtain ⟨name, references, markers⟩ := others
  exact ⟨fun b mem => settled_of_read yields found mem, ⟨name ▸ nameFits, references ▸ referencesFit,
    markers ▸ markersFit, types, document, pointed⟩, small_of_names named⟩

end Read

end Module

end Hotpatch
