import Hotpatch.Proofs.Image.Points
import Hotpatch.Proofs.Image.ReadBack

/-! # Reading symbols

Reading a symbols file adds entries to a module, each point at the instruction that started at its
offset.

* **`ModuleImage.anchor?`** — the point that is meant by a written one.
* **`ModuleImage.addEntries`** — an image with more points.
* **`WritesEntry`** — the bytes that are read as an entry of an image.
* **`readSymbols_of_forall₂`**, **`exists_entries_of_readSymbols`** — what reading adds, forwards and
  backwards. -/

namespace Hotpatch

open Binary (read write)
open Bounded (Fits)

/-- A written point has no lengths in it. -/
instance : Bounded WrittenPoint := ⟨fun _ => True⟩

instance : LawfulBinary WrittenPoint where
  reads_write p _ := by
    show Reader.Reads _ (write p.offset ++ write p.line ++ write p.column) p
    rw [List.append_assoc]
    exact (reads_write p.offset trivial).bind ((reads_write p.line trivial).bind
      ((reads_write p.column trivial).bind_pure _))
  fits_of_yields _ _ := trivial

namespace ModuleImage

variable {image : ModuleImage} {typeIndex methodIndex : Nat}

/-! ## (1) Attaching points -/

/-- The point **anchored** by a written one, at the instruction that started at its offset. -/
def anchor? (image : ModuleImage) (typeIndex methodIndex : Nat) (point : WrittenPoint) :
    Option SequencePoint :=
  (image.handleAt? typeIndex methodIndex point.offset.toNat).map fun handle =>
    ⟨handle, point.line, point.column⟩

/-- An image with **more points** in its module. -/
def addEntries (image : ModuleImage) (entries : List PointEntry) : ModuleImage :=
  { image with module := image.module.addEntries entries }

/-- Entries are added one after the other. -/
theorem addEntries_append (image : ModuleImage) (front behind : List PointEntry) :
    image.addEntries (front ++ behind) = (image.addEntries front).addEntries behind := by
  rw [addEntries, Module.addEntries, List.foldl_append]
  rfl

/-- Points do not move instructions. -/
@[simp] theorem handleAt?_addEntries (entries : List PointEntry) (offset : Nat) :
    (image.addEntries entries).handleAt? typeIndex methodIndex offset
      = image.handleAt? typeIndex methodIndex offset := by
  simp only [handleAt?, addEntries, Module.addEntries_eq, Module.method?_mapMethods]
  cases image.module.method? typeIndex methodIndex with
  | none => rfl
  | some method =>
    obtain ⟨name, attributes, parameters, returnType, markers, body?⟩ := method
    cases body? <;> rfl

/-- Points do not change what other points mean. -/
@[simp] theorem anchor?_addEntries (entries : List PointEntry) (point : WrittenPoint) :
    (image.addEntries entries).anchor? typeIndex methodIndex point
      = image.anchor? typeIndex methodIndex point := by
  rw [anchor?, handleAt?_addEntries, anchor?]

/-- Two entries for one place are as good as one with the points of both. -/
theorem addEntries_pair (first second : List SequencePoint) :
    image.addEntries [⟨typeIndex, methodIndex, first⟩, ⟨typeIndex, methodIndex, second⟩]
      = image.addEntries [⟨typeIndex, methodIndex, first ++ second⟩] := by
  have same : ∀ otherType otherMethod,
      pointsAt [⟨typeIndex, methodIndex, first⟩, ⟨typeIndex, methodIndex, second⟩] otherType otherMethod
        = pointsAt [⟨typeIndex, methodIndex, first ++ second⟩] otherType otherMethod := by
    intro otherType otherMethod
    simp only [pointsAt, List.flatMap_cons, List.flatMap_nil, List.append_nil]
    split <;> rfl
  simp only [addEntries, Module.addEntries_eq, same]

/-- An entry without points changes nothing. -/
@[simp] theorem addEntries_empty : image.addEntries [⟨typeIndex, methodIndex, []⟩] = image := by
  have none : ∀ otherType otherMethod,
      pointsAt [⟨typeIndex, methodIndex, []⟩] otherType otherMethod = [] := by
    intro otherType otherMethod
    simp [pointsAt]
  have keeps : image.module.addEntries [⟨typeIndex, methodIndex, []⟩] = image.module := by
    rw [Module.addEntries_eq]
    simp only [none]
    exact Module.mapMethods_eq_self fun _ _ method _ => Module.mapBody_addPoints_nil method
  rw [addEntries, keeps]

/-- **A point that is anchored** is attached where it belongs. -/
theorem attach_of_anchor? {written : WrittenPoint} {point : SequencePoint}
    (anchored : image.anchor? typeIndex methodIndex written = some point) :
    image.attach typeIndex methodIndex written
      = .ok (image.addEntries [⟨typeIndex, methodIndex, [point]⟩]) := by
  obtain ⟨handle, here, rfl⟩ := Option.map_eq_some_iff.mp anchored
  rw [attach, here]
  rfl

/-- A point that was attached is anchored. -/
theorem exists_anchor_of_attach {written : WrittenPoint} {attached : ModuleImage}
    (done : image.attach typeIndex methodIndex written = .ok attached) :
    ∃ point, image.anchor? typeIndex methodIndex written = some point
      ∧ attached = image.addEntries [⟨typeIndex, methodIndex, [point]⟩] := by
  cases here : image.handleAt? typeIndex methodIndex written.offset.toNat with
  | none =>
    rw [attach, here] at done
    cases done
  | some handle =>
    have anchored : image.anchor? typeIndex methodIndex written
        = some ⟨handle, written.line, written.column⟩ := by
      rw [anchor?, here]
      rfl
    rw [attach_of_anchor? anchored] at done
    exact ⟨_, anchored, (Except.ok.inj done).symm⟩

/-- **Points are read** one after the other. -/
theorem readPoints_of_forall₂ {written : List WrittenPoint} {points : List SequencePoint}
    (anchored : List.Forall₂ (fun w p => image.anchor? typeIndex methodIndex w = some p) written points)
    (rest : List UInt8) :
    readPoints typeIndex methodIndex written.length image (written.flatMap write ++ rest)
      = (image.addEntries [⟨typeIndex, methodIndex, points⟩], .ok rest) := by
  induction written generalizing image points with
  | nil =>
    obtain rfl := List.forall₂_nil_left_iff.mp anchored
    rw [addEntries_empty]
    rfl
  | cons w written ih =>
    obtain ⟨p, others, first, behind, rfl⟩ := List.forall₂_cons_left_iff.mp anchored
    -- The points behind are anchored the same once the first one is attached.
    have later := ih (behind.imp fun w' p' same =>
      (anchor?_addEntries [⟨typeIndex, methodIndex, [p]⟩] w').trans same)
    have point := reads_write w trivial (written.flatMap write ++ rest)
    rw [List.flatMap_cons, List.append_assoc, List.length_cons, readPoints, point]
    dsimp only
    rw [attach_of_anchor? first]
    dsimp only
    rw [later, ← addEntries_append]
    exact congrArg (·, Except.ok rest) (addEntries_pair [p] others)

/-- Points that were read have been **added**, each at an instruction that is found by an offset. -/
theorem exists_points_of_readPoints {count : Nat} {bytes rest : List UInt8} {done : ModuleImage}
    (read : readPoints typeIndex methodIndex count image bytes = (done, .ok rest)) :
    ∃ points, done = image.addEntries [⟨typeIndex, methodIndex, points⟩] ∧ ∀ point ∈ points,
      ∃ offset, image.handleAt? typeIndex methodIndex offset = some point.instruction := by
  induction count generalizing image bytes with
  | zero =>
    obtain ⟨rfl, -⟩ := Prod.mk.inj read
    exact ⟨[], addEntries_empty.symm, nofun⟩
  | succ count ih =>
    rw [readPoints] at read
    split at read
    · cases read
    · next w left _ =>
      split at read
      · cases read
      · next attached first =>
        obtain ⟨p, anchored, rfl⟩ := exists_anchor_of_attach first
        obtain ⟨others, rfl, behind⟩ := ih read
        obtain ⟨handle, here, rfl⟩ := Option.map_eq_some_iff.mp anchored
        refine ⟨⟨handle, w.line, w.column⟩ :: others, ?_, List.forall_mem_cons.mpr ⟨⟨_, here⟩, ?_⟩⟩
        · rw [← addEntries_append]
          exact addEntries_pair _ others
        · simpa only [handleAt?_addEntries] using behind

/-! ## (2) Entries -/

/-- The bytes of an **entry**: a place and the points written for it. -/
def entryBytes (typeIndex methodIndex : Nat) (written : List WrittenPoint) : List UInt8 :=
  littleEndian 4 typeIndex ++ littleEndian 4 methodIndex ++ writeLength written.length
    ++ written.flatMap write

/-- An entry **written** as some bytes: the place and the number of points fit into four bytes each,
and the written points are anchored at those of the entry. -/
def WritesEntry (image : ModuleImage) (entry : PointEntry) (bytes : List UInt8) : Prop :=
  ∃ written, bytes = entryBytes entry.typeIndex entry.methodIndex written
    ∧ entry.typeIndex < 4294967296 ∧ entry.methodIndex < 4294967296 ∧ entry.points.length < 4294967296
    ∧ List.Forall₂ (fun w p => image.anchor? entry.typeIndex entry.methodIndex w = some p)
      written entry.points

/-- A number that fits is read back as a word. -/
theorem reads_word {n : Nat} (fits : n < 4294967296) :
    (Binary.read : Reader UInt32).Reads (littleEndian 4 n) (UInt32.ofNat n) :=
  (Reader.reads_unsigned fits).map UInt32.ofNat

/-- **Entries are read** one after the other. -/
theorem readEntries_of_forall₂ {entries : List PointEntry} {chunks : List (List UInt8)}
    (written : List.Forall₂ image.WritesEntry entries chunks) (rest : List UInt8) :
    readEntries entries.length image (chunks.flatten ++ rest)
      = (image.addEntries entries, .ok rest) := by
  induction entries generalizing image chunks with
  | nil =>
    obtain rfl := List.forall₂_nil_left_iff.mp written
    rfl
  | cons entry entries ih =>
    obtain ⟨chunk, others, first, behind, rfl⟩ := List.forall₂_cons_left_iff.mp written
    obtain ⟨points, rfl, typeFits, methodFits, countFits, anchored⟩ := first
    have later := @ih (image.addEntries [entry]) others (behind.imp fun e bytes => by
      simp only [WritesEntry, anchor?_addEntries]
      exact id)
    have count : points.length = entry.points.length := anchored.length_eq
    have head : readEntryHead.Reads (littleEndian 4 entry.typeIndex ++ (littleEndian 4 entry.methodIndex
        ++ writeLength points.length))
        (UInt32.ofNat entry.typeIndex, UInt32.ofNat entry.methodIndex, points.length) :=
      (reads_word typeFits).bind ((reads_word methodFits).bind
        ((reads_length (count ▸ countFits)).bind_pure _))
    -- Both places and the number come back from the words they were written as.
    have front := head (points.flatMap write ++ (others.flatten ++ rest))
    have typeIndex : (UInt32.ofNat entry.typeIndex).toNat = entry.typeIndex :=
      UInt32.toNat_ofNat_of_lt typeFits
    have methodIndex : (UInt32.ofNat entry.methodIndex).toNat = entry.methodIndex :=
      UInt32.toNat_ofNat_of_lt methodFits
    rw [List.flatten_cons, entryBytes, List.length_cons, readEntries]
    simp only [List.append_assoc] at front ⊢
    rw [front]
    dsimp only
    rw [typeIndex, methodIndex, readPoints_of_forall₂ anchored]
    exact later

/-- Entries that were read have been **added**, as many as were asked for, and their points are at
instructions that are found by an offset. -/
theorem exists_entries_of_readEntries {count : Nat} {bytes rest : List UInt8} {done : ModuleImage}
    (read : readEntries count image bytes = (done, .ok rest)) :
    ∃ entries : List PointEntry, done = image.addEntries entries ∧ entries.length = count
      ∧ ∀ entry ∈ entries, ∀ point ∈ entry.points,
        ∃ offset, image.handleAt? entry.typeIndex entry.methodIndex offset
          = some point.instruction := by
  induction count generalizing image bytes with
  | zero =>
    obtain ⟨rfl, -⟩ := Prod.mk.inj read
    exact ⟨[], rfl, rfl, nofun⟩
  | succ count ih =>
    rw [readEntries] at read
    split at read
    · cases read
    · next typeIndex methodIndex points left _ =>
      split at read
      · cases read
      · next attached behind first =>
        obtain ⟨points, rfl, found⟩ := exists_points_of_readPoints first
        obtain ⟨entries, rfl, length, others⟩ := ih read
        refine ⟨⟨typeIndex.toNat, methodIndex.toNat, points⟩ :: entries, ?_, congrArg (· + 1) length,
          List.forall_mem_cons.mpr ⟨found, ?_⟩⟩
        · exact (addEntries_append image [_] entries).symm
        · simpa only [handleAt?_addEntries] using others

/-! ## (3) Files -/

/-- An image with **more points and a document**. -/
def withSymbols (image : ModuleImage) (entries : List PointEntry) (document : String) : ModuleImage :=
  { image with module := { image.module.addEntries entries with document? := some document } }

/-- **A symbols file is read** entry by entry. -/
theorem readSymbols_of_forall₂ {document : String} {entries : List PointEntry}
    {chunks : List (List UInt8)} (documentFits : Fits document) (few : entries.length < 4294967296)
    (written : List.Forall₂ image.WritesEntry entries chunks) (rest : List UInt8) :
    image.readSymbols ((symbolsMagic ++ write document ++ writeLength entries.length ++ chunks.flatten)
        ++ rest)
      = (image.withSymbols entries document, .ok rest) := by
  have magic : (readMagic symbolsMagic).Reads symbolsMagic () := reads_magic rfl
  have head : readSymbolsHead.Reads (symbolsMagic ++ (write document ++ writeLength entries.length))
      (document, entries.length) :=
    magic.bind ((reads_write document documentFits).bind ((reads_length few).bind_pure _))
  have front := head (chunks.flatten ++ rest)
  simp only [List.append_assoc] at front ⊢
  rw [readSymbols, front]
  dsimp only
  rw [readEntries_of_forall₂ written]
  rfl

/-- **A symbols file that was read** has added entries and a document that fit, with points at
instructions that are found by an offset. -/
theorem exists_entries_of_readSymbols {bytes rest : List UInt8} {done : ModuleImage}
    (read : image.readSymbols bytes = (done, .ok rest)) :
    ∃ (entries : List PointEntry) (document : String), done = image.withSymbols entries document
      ∧ Fits document ∧ entries.length < 4294967296 ∧ ∀ entry ∈ entries, ∀ point ∈ entry.points,
        ∃ offset, image.handleAt? entry.typeIndex entry.methodIndex offset
          = some point.instruction := by
  rw [readSymbols] at read
  split at read
  · cases read
  · next document count left head =>
    split at read
    · cases read
    · next attached behind each =>
      obtain ⟨rfl, -⟩ := Prod.mk.inj read
      obtain ⟨entries, rfl, rfl, found⟩ := exists_entries_of_readEntries each
      -- The head is a magic, a document and a length.
      have yields : readSymbolsHead.Yields (document, entries.length) := ⟨bytes, left, head⟩
      obtain ⟨_, -, yields⟩ := yields.of_bind
      obtain ⟨document', text, yields⟩ := yields.of_bind
      obtain ⟨number, length, returned⟩ := yields.of_bind
      obtain ⟨rfl, rfl⟩ := Prod.mk.inj returned.of_pure
      exact ⟨entries, document', rfl, fits_of_yields _ text, lt_of_yields_length length, found⟩

end ModuleImage

end Hotpatch
