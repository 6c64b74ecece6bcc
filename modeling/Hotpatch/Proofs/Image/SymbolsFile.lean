import Hotpatch.Proofs.Binary.FixedSize
import Hotpatch.Proofs.Image.ReadSymbols

/-! # Symbols files

Which points there are in a symbols file, whether it goes on to its end or was cut off, and that reading it is
to attach these, one after the other, until one of them is refused.

* **`PlacedPoint`**, **`WrittenEntry`** — a point with the place it is written for, and all the points for one
  place.
* **`SymbolsTail`** — the points in a file behind its document, and what is left if it is all there;
  `exists_symbolsTail` has it for all bytes.
* **`ModuleImage.attachAll`** — points attached one after the other.
* **`ModuleImage.readSymbols_of_tail`** — reading symbols is attaching the points of the file. -/

namespace Hotpatch

open Binary (write)

/-! ## (1) Files -/

/-- A point **placed** in a symbols file: written for the method at a place. -/
structure PlacedPoint where
  typeIndex : Nat
  methodIndex : Nat
  point : WrittenPoint

/-- An entry **as written**: the points for the method at a place. -/
structure WrittenEntry where
  typeIndex : UInt32
  methodIndex : UInt32
  points : List WrittenPoint

/-- The **head** of an entry: its place, and a number of points. -/
def entryHead (typeIndex methodIndex : UInt32) (count : Nat) : List UInt8 :=
  write typeIndex ++ (write methodIndex ++ writeLength count)

namespace WrittenEntry

/-- The points of an entry, each with its place. -/
def placed (e : WrittenEntry) : List PlacedPoint :=
  e.points.map (⟨e.typeIndex.toNat, e.methodIndex.toNat, ·⟩)

/-- The **bytes** of an entry. -/
def bytes (e : WrittenEntry) : List UInt8 :=
  entryHead e.typeIndex e.methodIndex e.points.length ++ e.points.flatMap write

end WrittenEntry

/-- An entry that is **cut off**, with the points that are complete: within its head, or within a point. -/
inductive EntryCut : List UInt8 → List PlacedPoint → Prop
  | head {bytes : List UInt8} (short : bytes.length < 12) : EntryCut bytes []
  | point {e : WrittenEntry} {count : Nat} {bytes : List UInt8} (fewer : e.points.length < count)
      (fits : count < 4294967296) (short : bytes.length < 10) :
      EntryCut (entryHead e.typeIndex e.methodIndex count ++ (e.points.flatMap write ++ bytes)) e.placed

/-- The **tail** of a symbols file, behind its document: the points that are complete, and what is left behind
them if the file is all there. It may be cut off within the number of entries, or within an entry. -/
inductive SymbolsTail : List UInt8 → List PlacedPoint → Option (List UInt8) → Prop
  | whole {entries : List WrittenEntry} {left : List UInt8} (few : entries.length < 4294967296)
      (fits : ∀ e ∈ entries, e.points.length < 4294967296) :
      SymbolsTail (writeLength entries.length ++ (entries.flatMap (·.bytes) ++ left))
        (entries.flatMap (·.placed)) (some left)
  | uncounted {bytes : List UInt8} (short : bytes.length < 4) : SymbolsTail bytes [] none
  | cut {count : Nat} {entries : List WrittenEntry} {bytes : List UInt8} {last : List PlacedPoint}
      (few : count < 4294967296) (fits : ∀ e ∈ entries, e.points.length < 4294967296)
      (fewer : entries.length < count) (cut : EntryCut bytes last) :
      SymbolsTail (writeLength count ++ (entries.flatMap (·.bytes) ++ bytes))
        (entries.flatMap (·.placed) ++ last) none

/-- Read the **document** of a symbols file, behind its magic. -/
def readDocument : Reader String := do
  readMagic symbolsMagic
  Binary.read

/-! ## (2) All bytes -/

/-- **A point** takes ten bytes, and these are its bytes. -/
theorem fixedSize_point :
    (Binary.read : Reader WrittenPoint).FixedSize 10 fun front point => write point = front := by
  show Reader.FixedSize _ (4 + (4 + 2)) _
  refine fixedSize_word.bind fun offset => fixedSize_word.bind fun line =>
    fixedSize_half.bind_pure fun back column last middle second front first => ?_
  rw [← first, ← second, ← last, ← List.append_assoc]
  rfl

/-- **The head of an entry** takes twelve bytes, and these are its bytes. -/
theorem fixedSize_entryHead :
    ModuleImage.readEntryHead.FixedSize 12 fun front found =>
      entryHead found.1 found.2.1 found.2.2 = front ∧ found.2.2 < 4294967296 := by
  show Reader.FixedSize _ (4 + (4 + 4)) _
  refine fixedSize_word.bind fun typeIndex => fixedSize_word.bind fun methodIndex =>
    (Reader.fixedSize_unsigned 4).bind_pure fun back count last middle second front first => ?_
  rw [← first, ← second, ← last.1]
  exact ⟨rfl, last.2⟩

/-- All bytes are some points, as many as were asked for or all that are complete. -/
theorem exists_points (count : Nat) (bytes : List UInt8) :
    ∃ (points : List WrittenPoint) (left : List UInt8), bytes = points.flatMap write ++ left
      ∧ (points.length = count ∨ points.length < count ∧ left.length < 10) := by
  induction count generalizing bytes with
  | zero => exact ⟨[], bytes, rfl, .inl rfl⟩
  | succ count ih =>
    by_cases short : bytes.length < 10
    · exact ⟨[], bytes, rfl, .inr ⟨Nat.succ_pos count, short⟩⟩
    · obtain ⟨point, -, front⟩ := fixedSize_point.enough (bytes.take 10) (by rw [List.length_take]; omega)
      obtain ⟨points, left, behind, all⟩ := ih (bytes.drop 10)
      refine ⟨point :: points, left, ?_, ?_⟩
      · rw [List.flatMap_cons, List.append_assoc, ← behind, front, List.take_append_drop]
      · rw [List.length_cons]
        omega

/-- All bytes are some entries, as many as were asked for, or all that are complete and one that is cut off. -/
theorem exists_entries (count : Nat) (bytes : List UInt8) :
    ∃ (entries : List WrittenEntry) (left : List UInt8), bytes = entries.flatMap (·.bytes) ++ left
      ∧ (∀ e ∈ entries, e.points.length < 4294967296)
      ∧ (entries.length = count ∨ entries.length < count ∧ ∃ last, EntryCut left last) := by
  induction count generalizing bytes with
  | zero => exact ⟨[], bytes, rfl, List.forall_mem_nil _, .inl rfl⟩
  | succ count ih =>
    by_cases short : bytes.length < 12
    · exact ⟨[], bytes, rfl, List.forall_mem_nil _, .inr ⟨Nat.succ_pos count, [], .head short⟩⟩
    · obtain ⟨⟨typeIndex, methodIndex, number⟩, -, head, fits⟩ :=
        fixedSize_entryHead.enough (bytes.take 12) (by rw [List.length_take]; omega)
      obtain ⟨points, behind, written, all⟩ := exists_points number (bytes.drop 12)
      have whole : bytes = entryHead typeIndex methodIndex number ++ (points.flatMap write ++ behind) := by
        rw [← written, head, List.take_append_drop]
      rcases all with rfl | ⟨fewer, short⟩
      · obtain ⟨entries, left, rest, fit, all⟩ := ih behind
        refine ⟨⟨typeIndex, methodIndex, points⟩ :: entries, left, ?_, List.forall_mem_cons.mpr ⟨fits, fit⟩, ?_⟩
        · rw [whole, rest, List.flatMap_cons, WrittenEntry.bytes, List.append_assoc, List.append_assoc]
        · rw [List.length_cons]
          rcases all with same | ⟨fewer, cut⟩
          · exact .inl (by omega)
          · exact .inr ⟨by omega, cut⟩
      · have cut : EntryCut bytes (WrittenEntry.placed ⟨typeIndex, methodIndex, points⟩) :=
          whole ▸ .point (e := ⟨typeIndex, methodIndex, points⟩) fewer fits short
        exact ⟨[], bytes, rfl, List.forall_mem_nil _, .inr ⟨Nat.succ_pos count, _, cut⟩⟩

/-- **All bytes are a tail.** -/
theorem exists_symbolsTail (bytes : List UInt8) : ∃ points left?, SymbolsTail bytes points left? := by
  by_cases short : bytes.length < 4
  · exact ⟨[], none, .uncounted short⟩
  · obtain ⟨count, -, front, few⟩ :=
      (Reader.fixedSize_unsigned 4).enough (bytes.take 4) (by rw [List.length_take]; omega)
    obtain ⟨entries, left, written, fits, all⟩ := exists_entries count (bytes.drop 4)
    have whole : bytes = writeLength count ++ (entries.flatMap (·.bytes) ++ left) := by
      rw [← written, writeLength, front, List.take_append_drop]
    rw [whole]
    rcases all with rfl | ⟨fewer, last, cut⟩
    · exact ⟨_, _, .whole few fits⟩
    · exact ⟨_, _, .cut few fits fewer cut⟩

/-! ## (3) Points attached one after the other -/

namespace ModuleImage

/-- Images with what came of changing them, **and then** more is read if that went well. -/
def andThen (changed : ModuleImage × Except Fault Unit) (next : ModuleImage → SymbolsRead) : SymbolsRead :=
  match changed with
  | (image, .ok ()) => next image
  | (image, .error fault) => (image, .error fault)

/-- **Attach all** points, up to the first that is refused. -/
def attachAll (image : ModuleImage) : List PlacedPoint → ModuleImage × Except Fault Unit
  | [] => (image, .ok ())
  | placed :: rest =>
    match image.attach placed.typeIndex placed.methodIndex placed.point with
    | .ok attached => attached.attachAll rest
    | .error fault => (image, .error fault)

variable {image : ModuleImage}

/-- Points in front of others are attached before these. -/
theorem andThen_attachAll_append (front behind : List PlacedPoint) (next : ModuleImage → SymbolsRead) :
    andThen (image.attachAll (front ++ behind)) next
      = andThen (image.attachAll front) fun attached => andThen (attached.attachAll behind) next := by
  induction front generalizing image with
  | nil => rfl
  | cons placed front ih =>
    rw [List.cons_append, attachAll, attachAll]
    cases image.attach placed.typeIndex placed.methodIndex placed.point with
    | ok attached => exact ih
    | error fault => rfl

/-- **Reading points** is attaching them, and reading those that are behind. -/
theorem readPoints_append (image : ModuleImage) (e : WrittenEntry) (count : Nat) (bytes : List UInt8) :
    readPoints e.typeIndex.toNat e.methodIndex.toNat (e.points.length + count) image
        (e.points.flatMap write ++ bytes)
      = andThen (image.attachAll e.placed) fun attached =>
        readPoints e.typeIndex.toNat e.methodIndex.toNat count attached bytes := by
  obtain ⟨typeIndex, methodIndex, points⟩ := e
  induction points generalizing image with
  | nil =>
    rw [List.length_nil, Nat.zero_add]
    rfl
  | cons point points ih =>
    have read := reads_write point trivial (points.flatMap write ++ bytes)
    rw [List.length_cons, Nat.add_right_comm, List.flatMap_cons, List.append_assoc, readPoints, read]
    rw [WrittenEntry.placed, List.map_cons, attachAll]
    dsimp only
    cases image.attach typeIndex.toNat methodIndex.toNat point with
    | ok attached => exact ih attached
    | error fault => rfl

/-- The head of an entry is read as what it is. -/
theorem readEntryHead_entryHead (typeIndex methodIndex : UInt32) {count : Nat} (fits : count < 4294967296) :
    readEntryHead.Reads (entryHead typeIndex methodIndex count) (typeIndex, methodIndex, count) :=
  (reads_write typeIndex trivial).bind ((reads_write methodIndex trivial).bind
    ((reads_length fits).bind_pure _))

/-- **Reading entries** is attaching their points, and reading those that are behind. -/
theorem readEntries_append (image : ModuleImage) {entries : List WrittenEntry}
    (fits : ∀ e ∈ entries, e.points.length < 4294967296) (count : Nat) (bytes : List UInt8) :
    readEntries (entries.length + count) image (entries.flatMap (·.bytes) ++ bytes)
      = andThen (image.attachAll (entries.flatMap (·.placed))) fun attached =>
        readEntries count attached bytes := by
  induction entries generalizing image with
  | nil =>
    rw [List.length_nil, Nat.zero_add]
    rfl
  | cons e entries ih =>
    obtain ⟨first, others⟩ := List.forall_mem_cons.mp fits
    have head := readEntryHead_entryHead e.typeIndex e.methodIndex first
      (e.points.flatMap write ++ (entries.flatMap (·.bytes) ++ bytes))
    have points := image.readPoints_append e 0 (entries.flatMap (·.bytes) ++ bytes)
    rw [List.length_cons, Nat.add_right_comm, List.flatMap_cons, WrittenEntry.bytes, List.append_assoc,
      List.append_assoc, readEntries, head]
    dsimp only
    rw [Nat.add_zero] at points
    rw [points, List.flatMap_cons, andThen_attachAll_append]
    obtain ⟨attached, outcome⟩ := image.attachAll e.placed
    cases outcome with
    | ok done => exact ih attached others
    | error fault => rfl

/-- **An entry that is cut off** has its complete points attached. -/
theorem readEntries_of_cut {bytes : List UInt8} {last : List PlacedPoint} (cut : EntryCut bytes last)
    (count : Nat) :
    readEntries (count + 1) image bytes
      = andThen (image.attachAll last) fun attached => (attached, .error .unexpectedEnd) := by
  cases cut with
  | head short =>
    rw [readEntries, fixedSize_entryHead.short bytes short]
    rfl
  | @point e number bytes fewer fits short =>
    -- Behind the points that are complete another one is asked for, and the bytes are too few for it.
    obtain ⟨missing, rfl⟩ := Nat.exists_eq_add_of_lt fewer
    have head := readEntryHead_entryHead e.typeIndex e.methodIndex fits (e.points.flatMap write ++ bytes)
    rw [readEntries, head]
    dsimp only
    rw [Nat.add_assoc, readPoints_append]
    obtain ⟨attached, outcome⟩ := image.attachAll e.placed
    cases outcome with
    | ok done =>
      simp only [andThen, readPoints, fixedSize_point.short bytes short]
    | error fault => rfl

/-- The head of a file is its document and then a length. -/
theorem readSymbolsHead_of_document {file tail : List UInt8} {document : String}
    (titled : readDocument file = .ok (document, tail)) :
    readSymbolsHead file = (readLength >>= fun count => pure (document, count) : Reader (String × Nat)) tail := by
  obtain ⟨⟨⟩, between, magic, text⟩ := Step.bind_eq_ok_iff.mp titled
  exact (Step.bind_of_ok magic).trans (Step.bind_of_ok text)

/-- What comes of a file **at its end**: the document is taken over if all of the file was there. -/
def finish (document : String) (left? : Option (List UInt8)) (attached : ModuleImage) : SymbolsRead :=
  match left? with
  | some left => ({ attached with module.document? := some document }, .ok left)
  | none => (attached, .error .unexpectedEnd)

/-- **Reading symbols** is attaching the points of the file. -/
theorem readSymbols_of_tail {file tail : List UInt8} {document : String} {points : List PlacedPoint}
    {left? : Option (List UInt8)} (titled : readDocument file = .ok (document, tail))
    (holds : SymbolsTail tail points left?) :
    image.readSymbols file = andThen (image.attachAll points) (finish document left?) := by
  rw [readSymbols, readSymbolsHead_of_document titled]
  cases holds with
  | @whole entries left few fits =>
    have length := (reads_length few).bind_pure (document, ·) (entries.flatMap (·.bytes) ++ left)
    have all := image.readEntries_append fits 0 left
    rw [length]
    dsimp only
    rw [Nat.add_zero] at all
    rw [all]
    generalize image.attachAll (entries.flatMap (·.placed)) = changed
    obtain ⟨attached, outcome⟩ := changed
    cases outcome <;> rfl
  | uncounted short =>
    have none : readLength tail = .error .unexpectedEnd := (Reader.fixedSize_unsigned 4).short tail short
    rw [Step.bind_of_error none]
    rfl
  | @cut count entries bytes last few fits fewer cut =>
    have length := (reads_length few).bind_pure (document, ·) (entries.flatMap (·.bytes) ++ bytes)
    obtain ⟨missing, rfl⟩ := Nat.exists_eq_add_of_lt fewer
    rw [length]
    dsimp only
    rw [Nat.add_assoc, readEntries_append _ fits, andThen_attachAll_append]
    simp only [readEntries_of_cut cut]
    generalize image.attachAll (entries.flatMap (·.placed)) = changed
    obtain ⟨attached, outcome⟩ := changed
    cases outcome with
    | error fault => rfl
    | ok done =>
      dsimp only [andThen]
      generalize attached.attachAll last = changed
      obtain ⟨attached, outcome⟩ := changed
      cases outcome <;> rfl

end ModuleImage

end Hotpatch
