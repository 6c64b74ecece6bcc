import Hotpatch.Proofs.Image.Faults
import Hotpatch.Proofs.Image.ReadSymbols

/-! # Writing symbols

What is written for the sequence points of a module, and what it is read as on top of the image of the
same module.

* **`Body.writtenPoint`** — a sequence point by the offset of its instruction.
* **`Module.writeSymbols_eq_ok_iff`** — when symbols can be written, and their bytes.
* **`Module.anchor?_imaged`** — the image has each point at the instruction it belongs to.
* **`Module.writesEntries`** — the entries written are those of the renumbered module.
* **`Module.addEntries_imaged`** — with these the image has all points of the renumbered module. -/

namespace Hotpatch

open Bounded (Fits)
open ModuleImage (entryBytes)

/-! ## (1) Points -/

/-- Bytes that do not fit into the width are not missed. -/
theorem littleEndian_mod (width n : Nat) :
    littleEndian width (n % 256 ^ width) = littleEndian width n := by
  induction width generalizing n with
  | zero => rfl
  | succ width ih =>
    have low : UInt8.ofNat (n % 256 ^ (width + 1)) = UInt8.ofNat n := by
      apply UInt8.toNat_inj.mp
      rw [UInt8.toNat_ofNat', UInt8.toNat_ofNat', Nat.pow_succ']
      exact Nat.mod_mul_right_mod n 256 (256 ^ width)
    have high : n % 256 ^ (width + 1) / 256 = n / 256 % 256 ^ width := by
      rw [Nat.pow_succ']
      exact Nat.mod_mul_right_div_self n 256 (256 ^ width)
    rw [littleEndian, littleEndian, low, high, ih]

namespace Body

variable {b : Body} {bytes : List UInt8} {typeIndex methodIndex : Nat}

/-- A sequence point **as written**, by the offset of its instruction. -/
def writtenPoint (b : Body) (point : SequencePoint) : WrittenPoint :=
  ⟨UInt32.ofNat (b.offsetOf point.instruction), point.line, point.column⟩

/-- A sequence point can be written if its instruction is in the body. -/
theorem WellFormed.write_eq_ok_iff (wf : b.WellFormed) {point : SequencePoint} :
    point.write b.offsets = .ok bytes
      ↔ point.instruction.index < b.code.length ∧ bytes = Binary.write (b.writtenPoint point) := by
  rw [SequencePoint.write, getElem?_offsets]
  by_cases inside : point.instruction.index < b.code.length
  · obtain ⟨position, placed, here, same⟩ := wf.exists_position inside
    have offset := offset?_of_getElem? wf.distinct here
    -- The offset may be cut down to four bytes, in the word as in the bytes.
    have word : Binary.write (UInt32.ofNat placed.offset) = littleEndian 4 placed.offset := by
      show littleEndian 4 (UInt32.ofNat placed.offset).toNat = _
      rw [UInt32.toNat_ofNat']
      exact littleEndian_mod 4 placed.offset
    rw [if_pos inside, ← same, offset, same]
    have bytesOf : Binary.write (b.writtenPoint point)
        = littleEndian 4 placed.offset ++ Binary.write point.line ++ Binary.write point.column := by
      show Binary.write (UInt32.ofNat (b.offsetOf point.instruction)) ++ Binary.write point.line
        ++ Binary.write point.column = _
      rw [offsetOf, ← same, offset, Option.getD_some, word]
    rw [bytesOf]
    exact ⟨fun done => ⟨inside, (Except.ok.inj done).symm⟩, fun h => congrArg Except.ok h.2.symm⟩
  · rw [if_neg inside]
    refine iff_of_false (fun done => ?_) fun h => inside h.1
    cases done

/-- **The entry of a body** can be written if its offsets are current and its points are in it. -/
theorem WellFormed.writePoints_eq_ok_iff (wf : b.WellFormed) :
    b.writePoints typeIndex methodIndex = .ok bytes
      ↔ (b.offsetsAreCurrent = true ∧ ∀ point ∈ b.points, point.instruction.index < b.code.length)
        ∧ bytes = entryBytes typeIndex methodIndex (b.points.map b.writtenPoint) := by
  have points {chunks : List (List UInt8)} : b.points.mapM (SequencePoint.write b.offsets) = .ok chunks
      ↔ (∀ point ∈ b.points, point.instruction.index < b.code.length)
        ∧ chunks = b.points.map fun point => Binary.write (b.writtenPoint point) :=
    Attempt.mapM_eq_ok_iff_forall fun _ _ _ => wf.write_eq_ok_iff
  rw [writePoints, entryBytes, List.length_map, List.flatMap_map]
  cases current : b.offsetsAreCurrent with
  | false =>
    refine iff_of_false (fun done => ?_) fun h => ?_
    · cases done
    · cases h.1.1
  | true =>
    constructor
    · intro done
      obtain ⟨chunks, each, whole⟩ := Attempt.bind_eq_ok_iff.mp done
      obtain ⟨inside, rfl⟩ := points.mp each
      obtain rfl := Except.ok.inj whole
      exact ⟨⟨rfl, inside⟩, rfl⟩
    · rintro ⟨⟨-, inside⟩, rfl⟩
      exact Attempt.bind_of_ok (points.mpr ⟨inside, rfl⟩)

end Body

/-! ## (2) Files -/

namespace Module

variable {m : Module} {typeIndex methodIndex : Nat} {b : Body}

/-- The bytes of the entry at a place. -/
def placeBytes (place : Nat × Nat × Body) : List UInt8 :=
  entryBytes place.1 place.2.1 (place.2.2.points.map place.2.2.writtenPoint)

/-- **Symbols can be written** if all bodies with points have current offsets and no points elsewhere.
-/
theorem writeSymbols_eq_ok_iff (wf : m.WellFormed) {bytes : List UInt8} :
    m.writeSymbols = .ok bytes
      ↔ (∀ place ∈ m.pointed, place.2.2.offsetsAreCurrent = true
          ∧ ∀ point ∈ place.2.2.points, point.instruction.index < place.2.2.code.length)
        ∧ bytes = symbolsMagic ++ Binary.write (m.document?.getD "") ++ writeLength m.pointed.length
          ++ (m.pointed.map placeBytes).flatten := by
  have entries {chunks : List (List UInt8)} :
      (m.pointed.mapM fun place => place.2.2.writePoints place.1 place.2.1) = .ok chunks ↔ _ :=
    Attempt.mapM_eq_ok_iff_forall fun place mem _ =>
      (wf _ (mem_bodies_of_mem_pointed mem)).writePoints_eq_ok_iff
  rw [writeSymbols, Attempt.bind_eq_ok_iff]
  constructor
  · rintro ⟨chunks, each, whole⟩
    obtain ⟨writable, rfl⟩ := entries.mp each
    rw [← Except.ok.inj whole, List.length_map]
    exact ⟨writable, rfl⟩
  · rintro ⟨writable, rfl⟩
    refine ⟨_, entries.mpr ⟨writable, rfl⟩, ?_⟩
    rw [List.length_map]
    rfl

/-! ## (3) Points in the image -/

/-- **Where a point is anchored** in the image of a module: at the instruction of its body that starts
at the offset. -/
theorem handleAt?_imaged {owner : TypeDef} {method : MethodDef}
    (inModule : m.types[typeIndex]? = some owner) (inType : owner.methods[methodIndex]? = some method)
    (has : method.body? = some b) (offset : Nat) :
    m.imaged.handleAt? typeIndex methodIndex offset
      = (b.cut.lookup offset).index?.bind b.imaged.handleAt? := by
  have cut : m.imaged.cuts[typeIndex]?
      = some (owner.methods.map fun method => method.body?.map Body.cut) := by
    rw [imaged, List.getElem?_map, inModule]
    rfl
  have body : m.imaged.module.method? typeIndex methodIndex = some (method.mapBody Body.imaged) := by
    show (m.mapBodies Body.imaged).method? typeIndex methodIndex = _
    rw [mapBodies_eq_mapMethods, method?_mapMethods, method?, inModule]
    show (owner.methods[methodIndex]?).map _ = _
    rw [inType]
    rfl
  rw [ModuleImage.handleAt?, cut, body]
  show ((owner.methods.map fun method => method.body?.map Body.cut)[methodIndex]?).bind _ = _
  rw [List.getElem?_map, inType]
  show (method.body?.map Body.cut).bind _ = _
  rw [has]
  show ((method.mapBody Body.imaged).body?).bind _ = _
  rw [MethodDef.mapBody, has]
  rfl

/-- **Each point is anchored** at the position of its instruction. -/
theorem anchor?_imaged (wf : b.WellFormed) (writable : b.fault? = none) {owner : TypeDef}
    {method : MethodDef} (inModule : m.types[typeIndex]? = some owner)
    (inType : owner.methods[methodIndex]? = some method) (has : method.body? = some b)
    {point : SequencePoint} (inside : point.instruction.index < b.code.length) :
    m.imaged.anchor? typeIndex methodIndex (b.writtenPoint point)
      = some { point with instruction := b.rank point.instruction } := by
  obtain ⟨current, size⟩ := Body.current_of_fault?_eq_none writable
  obtain ⟨position, placed, here, same, rank⟩ := wf.exists_rank inside
  have offset : b.offsetOf point.instruction = placed.offset := by
    rw [← same, Body.offsetOf, Body.offset?_of_getElem? wf.distinct here, Option.getD_some]
  -- The code is not too large, so the offset comes back from four bytes.
  have bound : placed.offset < 4294967296 := by
    have within := startOf_le_sum (Body.widths b.code) position
    rw [Body.codeSize_eq current, Body.maxCodeSize] at size
    rw [Body.offsetsAreCurrent_iff.mp current position placed here]
    omega
  have word : (b.writtenPoint point).offset.toNat = placed.offset := by
    show (UInt32.ofNat (b.offsetOf point.instruction)).toNat = _
    rw [offset]
    exact UInt32.toNat_ofNat_of_lt bound
  have handle : b.imaged.handleAt? position = some ⟨position⟩ := by
    show (b.renumber.code[position]?).map (·.handle) = _
    rw [Body.getElem?_renumber, here]
    rfl
  rw [ModuleImage.anchor?, word, handleAt?_imaged inModule inType has, Body.lookup_cut current here,
    rank]
  show (b.imaged.handleAt? position).map _ = _
  rw [handle]
  rfl

/-- **The entries that are written** are those of the renumbered module. -/
theorem writesEntries (wf : m.WellFormed) (fits : Fits m) {bytes : List UInt8}
    (written : m.write = .ok bytes) (inside : ∀ place ∈ m.pointed,
      ∀ point ∈ place.2.2.points, point.instruction.index < place.2.2.code.length) :
    List.Forall₂ m.imaged.WritesEntry (m.entries (·.renumber.points)) (m.pointed.map placeBytes) := by
  rw [entries, List.forall₂_map_left_iff, List.forall₂_map_right_iff, List.forall₂_same]
  rintro ⟨typeIndex, methodIndex, b⟩ mem
  obtain ⟨owner, method, inModule, inType, has, -⟩ := exists_method_of_mem_pointed mem
  have inBodies := mem_bodies_of_mem_pointed mem
  have writable := fault?_eq_none_of_write wf written inBodies
  -- All numbers in the entry are lengths of lists that fit, or below these.
  obtain ⟨-, -, -, ⟨typeCount, typesFit⟩, -⟩ := fits
  obtain ⟨-, -, -, methodCount, methodsFit⟩ := typesFit owner (List.mem_of_getElem? inModule)
  obtain ⟨-, -, -, -, bodyFits⟩ := methodsFit method (List.mem_of_getElem? inType)
  obtain ⟨-, pointCount, -⟩ := bodyFits b has
  have typeBound := (List.getElem?_eq_some_iff.mp inModule).1
  have methodBound := (List.getElem?_eq_some_iff.mp inType).1
  refine ⟨b.points.map b.writtenPoint, rfl, Nat.lt_trans typeBound typeCount,
    Nat.lt_trans methodBound methodCount, ?_, ?_⟩
  · show b.renumber.points.length < 4294967296
    rwa [Body.renumber, List.length_map]
  · show List.Forall₂ _ (b.points.map b.writtenPoint) (b.points.map _)
    rw [List.forall₂_map_left_iff, List.forall₂_map_right_iff, List.forall₂_same]
    intro point hit
    exact anchor?_imaged (wf b inBodies) writable inModule inType has (inside _ mem point hit)

/-- **With the entries** of its bodies the image of a module has all of its points. -/
theorem addEntries_imaged (document : String) :
    (m.imaged.withSymbols (m.entries (·.renumber.points)) document).module
      = { m.renumber with document? := some document } := by
  have points : (m.mapBodies Body.imaged).mapMethods (fun typeIndex methodIndex =>
        (·.mapBody (·.addPoints (pointsAt (m.entries (·.renumber.points)) typeIndex methodIndex))))
      = m.renumber := by
    rw [mapBodies_eq_mapMethods, mapMethods_mapMethods, renumber, mapBodies_eq_mapMethods]
    refine mapMethods_congr fun typeIndex methodIndex method here => ?_
    -- Bodies without points have no entry, which is as good as an empty one.
    have none : ∀ b : Body, b.points = [] → b.renumber.points = [] := by
      intro b empty
      rw [Body.renumber, empty, List.map_nil]
    rw [pointsAt_entries none, here]
    obtain ⟨name, attributes, parameters, returnType, markers, body?⟩ := method
    cases body? <;> rfl
  have entries : (m.imaged.module.addEntries (m.entries (·.renumber.points)))
      = { m.renumber with document? := none } := by
    rw [addEntries_eq, ← points]
    rfl
  rw [ModuleImage.withSymbols, entries]

end Module

end Hotpatch
