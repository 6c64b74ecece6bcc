import Hotpatch.Proofs.Image.CodeBytes
import Hotpatch.Proofs.Image.NormalForm
import Hotpatch.Proofs.Image.SymbolsFile

/-! # Points anchored in the code

Which points of a symbols file are attached, and to which instructions. The offsets in the file are those in the
image, where instructions may be in longer forms than in the body.

* **`PlacedPoint.Anchors`** — a point with the instruction that started at its offset in the code.
* **`ComesFrom.attach_of_anchors`**, **`ComesFrom.attach_of_not`** — a point is attached to this instruction, or
  refused if there is none.
* **`ComesFrom.attachAll_of_anchors`**, **`ComesFrom.attachAll_of_bad`** — points up to the first that is
  refused.
* **`ModuleImage.readSymbols_of_read`** — what comes of a symbols file, whatever was read before it. -/

namespace Hotpatch

/-- A placed point **anchors** an entry in the code of an image: at its place an instruction started at its
offset, and the entry has the point for this instruction. -/
def PlacedPoint.Anchors (code : ImageCode) (placed : PlacedPoint) (entry : PointEntry) : Prop :=
  ∃ bytes index p, code.at? placed.typeIndex placed.methodIndex = some bytes
    ∧ PieceAt code.tokens bytes index p ∧ p.start = placed.point.offset.toNat
    ∧ entry = ⟨placed.typeIndex, placed.methodIndex, [⟨⟨index⟩, placed.point.line, placed.point.column⟩]⟩

namespace ModuleImage

variable {image : ModuleImage} {code : ImageCode} {placed : PlacedPoint} {entry : PointEntry}

/-! ## (1) Single points -/

/-- **A point that anchors** an entry is attached as it. -/
theorem ComesFrom.attach_of_anchors (comes : image.ComesFrom code) (anchors : placed.Anchors code entry) :
    image.attach placed.typeIndex placed.methodIndex placed.point = .ok (image.addEntries [entry]) := by
  obtain ⟨bytes, index, p, at?, piece, starts, rfl⟩ := anchors
  have found := comes.handleAt?_eq_some_iff.mpr ⟨bytes, index, p, at?, piece, starts, rfl⟩
  refine attach_of_anchor? ?_
  rw [anchor?, found]
  rfl

/-- **A point that anchors nothing** is refused. -/
theorem ComesFrom.attach_of_not (comes : image.ComesFrom code) (bad : ∀ entry, ¬ placed.Anchors code entry) :
    image.attach placed.typeIndex placed.methodIndex placed.point
      = .error (.badSequencePoint placed.typeIndex placed.methodIndex placed.point.offset.toNat) := by
  rw [attach]
  cases found : image.handleAt? placed.typeIndex placed.methodIndex placed.point.offset.toNat with
  | none => rfl
  | some handle =>
    obtain ⟨bytes, index, p, at?, piece, starts, -⟩ := comes.handleAt?_eq_some_iff.mp found
    exact absurd ⟨bytes, index, p, at?, piece, starts, rfl⟩ (bad _)

/-! ## (2) Points of a file -/

/-- **Points that anchor entries** are attached as these, and those behind them afterwards. -/
theorem ComesFrom.attachAll_append (comes : image.ComesFrom code) {front : List PlacedPoint}
    {entries : List PointEntry} (each : List.Forall₂ (PlacedPoint.Anchors code) front entries)
    (behind : List PlacedPoint) :
    image.attachAll (front ++ behind) = (image.addEntries entries).attachAll behind := by
  induction each generalizing image with
  | nil => rfl
  | @cons placed entry front entries anchors others ih =>
    -- With the first point attached the code is the same, so the others anchor what they did.
    rw [List.cons_append, attachAll, comes.attach_of_anchors anchors]
    exact ih (comes.addEntries [entry])

/-- Points that all anchor entries are attached as these. -/
theorem ComesFrom.attachAll_of_anchors (comes : image.ComesFrom code) {points : List PlacedPoint}
    {entries : List PointEntry} (each : List.Forall₂ (PlacedPoint.Anchors code) points entries) :
    image.attachAll points = (image.addEntries entries, .ok ()) := by
  have all := comes.attachAll_append each []
  rwa [List.append_nil] at all

/-- **The first point that anchors nothing** is the fault, and those in front of it stay attached. -/
theorem ComesFrom.attachAll_of_bad (comes : image.ComesFrom code) {front : List PlacedPoint}
    {entries : List PointEntry} (each : List.Forall₂ (PlacedPoint.Anchors code) front entries)
    (bad : ∀ entry, ¬ placed.Anchors code entry) (behind : List PlacedPoint) :
    image.attachAll (front ++ placed :: behind) = (image.addEntries entries,
      .error (.badSequencePoint placed.typeIndex placed.methodIndex placed.point.offset.toNat)) := by
  rw [comes.attachAll_append each, attachAll, (comes.addEntries entries).attach_of_not bad]

/-- All points anchor something, or there is a first one that does not. -/
theorem anchors_or_first (code : ImageCode) (points : List PlacedPoint) :
    (∃ entries, List.Forall₂ (PlacedPoint.Anchors code) points entries)
      ∨ ∃ front bad behind entries, points = front ++ bad :: behind
        ∧ List.Forall₂ (PlacedPoint.Anchors code) front entries ∧ ∀ entry, ¬ bad.Anchors code entry := by
  rcases forall_or_first (fun placed => ∃ entry, PlacedPoint.Anchors code placed entry) points with
    all | ⟨front, bad, behind, rfl, each, fails⟩
  · exact .inl (exists_forall₂ all)
  · obtain ⟨entries, each⟩ := exists_forall₂ each
    exact .inr ⟨front, bad, behind, entries, rfl, each, not_exists.mp fails⟩

/-! ## (3) Files -/

/-- Read **all** symbols files into an image, and go on after those that fail. -/
def readAll (image : ModuleImage) (files : List (List UInt8)) : ModuleImage :=
  files.foldl (fun image file => (image.readSymbols file).1) image

/-- Symbols files leave an image with its code. -/
theorem ComesFrom.readAll (comes : image.ComesFrom code) (files : List (List UInt8)) :
    (image.readAll files).ComesFrom code := by
  induction files generalizing image with
  | nil => exact comes
  | cons file files ih => exact ih (comes.readSymbols file)

/-- **Symbols of an image that was read.** Where the image has code there is a body with the instructions of the
code, whatever symbols files were read into the image before, and elsewhere there is none. All bytes behind a
document are then points up to an end, or to where they are cut off. If all points anchor something, each body
grows by those for its place, in their order; the document is taken over if the file is all there, and otherwise
the fault is the end. If not, the first point that anchors nothing is the fault, and only those in front of it
are attached. -/
theorem readSymbols_of_read {bytes rest : List UInt8} (loads : ModuleImage.read bytes = .ok (image, rest)) :
    ∃ code, readCode bytes = .ok (code, rest) ∧ ∀ earlier before, image.readAll earlier = before →
      (∀ typeIndex methodIndex, code.at? typeIndex methodIndex = none →
        before.bodyAt? typeIndex methodIndex = none)
      ∧ (∀ typeIndex methodIndex taken, code.at? typeIndex methodIndex = some taken →
        ∃ body pieces, before.bodyAt? typeIndex methodIndex = some body
          ∧ GreedyCut code.tokens 0 taken pieces none ∧ body.code.length = pieces.length
          ∧ ∀ (index : Nat) (p : Piece), pieces[index]? = some p →
            ∃ target, body.instruction? ⟨index⟩ = some (p.instruction.relabel target))
      ∧ (∀ entries, (before.addEntries entries).module.document? = before.module.document?
        ∧ ∀ typeIndex methodIndex, (before.addEntries entries).bodyAt? typeIndex methodIndex
          = (before.bodyAt? typeIndex methodIndex).map fun body =>
            { body with points := body.points ++ pointsAt entries typeIndex methodIndex })
      ∧ ∀ file document tail, readDocument file = .ok (document, tail) →
        (∃ points left?, SymbolsTail tail points left?)
        ∧ ∀ points left?, SymbolsTail tail points left? →
          ((∃ entries, List.Forall₂ (PlacedPoint.Anchors code) points entries)
            ∨ ∃ front bad behind entries, points = front ++ bad :: behind
              ∧ List.Forall₂ (PlacedPoint.Anchors code) front entries ∧ ∀ entry, ¬ bad.Anchors code entry)
          ∧ (∀ entries, List.Forall₂ (PlacedPoint.Anchors code) points entries →
            (∀ left, left? = some left →
              before.readSymbols file = (before.withSymbols entries document, .ok left))
            ∧ (left? = none → before.readSymbols file = (before.addEntries entries, .error .unexpectedEnd)))
          ∧ ∀ front bad behind entries, points = front ++ bad :: behind →
            List.Forall₂ (PlacedPoint.Anchors code) front entries → (∀ entry, ¬ bad.Anchors code entry) →
            before.readSymbols file = (before.addEntries entries,
              .error (.badSequencePoint bad.typeIndex bad.methodIndex bad.point.offset.toNat)) := by
  obtain ⟨code, read, whole⟩ := comesFrom_of_read loads
  refine ⟨code, read, fun earlier before reached => ?_⟩
  have comes : before.ComesFrom code := reached ▸ whole.readAll earlier
  refine ⟨fun typeIndex methodIndex => comes.bodyAt?_eq_none,
    fun typeIndex methodIndex taken => comes.exists_body,
    fun entries => ⟨?_, fun _ _ => bodyAt?_addEntries entries⟩,
    fun file document tail titled => ⟨exists_symbolsTail tail, fun points left? holds =>
      ⟨anchors_or_first code points, ?_, ?_⟩⟩⟩
  · rw [addEntries, Module.addEntries_eq]
    rfl
  · intro entries each
    rw [readSymbols_of_tail titled holds, comes.attachAll_of_anchors each]
    refine ⟨fun left all => ?_, fun cut => ?_⟩
    · rw [all]
      rfl
    · rw [cut]
      rfl
  · rintro front bad behind entries rfl each fails
    rw [readSymbols_of_tail titled holds, comes.attachAll_of_bad each fails]
    rfl

/-- Symbols with an entry for a method that is missing, which has no points, and two points for one that is
there: the second is where an instruction is in the body, but not in the image. -/
def crookedSymbols : List UInt8 :=
  symbolsMagic ++ [1, 0, 0, 0, 99] ++ [2, 0, 0, 0]
    ++ [9, 0, 0, 0, 9, 0, 0, 0, 0, 0, 0, 0]
    ++ [0, 0, 0, 0, 0, 0, 0, 0, 2, 0, 0, 0, 5, 0, 0, 0, 7, 0, 0, 0, 1, 0, 6, 0, 0, 0, 8, 0, 0, 0, 1, 0]

/-- The entries of these symbols. -/
def crookedEntries : List WrittenEntry :=
  [⟨9, 9, []⟩, ⟨0, 0, [⟨5, 7, 1⟩, ⟨6, 8, 1⟩]⟩]

/-- Behind symbols for the same method, and others that are cut off, the first of the two points is attached,
and the second is the fault. -/
theorem readSymbols_of_read_crooked :
    ∃ image, ModuleImage.read Module.looseImage = .ok (image, []) ∧ ∃ before,
      image.readAll [Module.splitSymbols, Module.splitSymbols.take 40] = before
        ∧ before.readSymbols crookedSymbols
          = (before.addEntries [⟨0, 0, [⟨⟨1⟩, 7, 1⟩]⟩], .error (.badSequencePoint 0 0 6)) := by
  have left : (ModuleImage.read Module.looseImage).toOption.map (·.2) = some [] := by decide +kernel
  cases loads : ModuleImage.read Module.looseImage with
  | error fault =>
    rw [loads] at left
    cases left
  | ok found =>
    obtain ⟨image, rest⟩ := found
    rw [loads] at left
    obtain rfl : rest = [] := Option.some.inj left
    obtain ⟨code, read, all⟩ := readSymbols_of_read loads
    obtain ⟨-, -, -, files⟩ := all [Module.splitSymbols, Module.splitSymbols.take 40] _ rfl
    have codes : (readCode Module.looseImage).toOption.map (fun found => (found.1.tokens, found.1.at? 0 0))
        = some (⟨["b", "a", "a"], [], []⟩,
          some [0x72, 3, 0, 0, 0x70, 0x20, 1, 0, 0, 0, 0x26, 0x2b, 0xf8]) := by decide +kernel
    rw [read] at codes
    obtain ⟨tokens, at?⟩ := Prod.mk.inj (Option.some.inj codes)
    have cut : GreedyCut code.tokens 0 [0x72, 3, 0, 0, 0x70, 0x20, 1, 0, 0, 0, 0x26, 0x2b, 0xf8]
        [⟨0, 5, .ldstr "a"⟩, ⟨5, 5, .ldcI4 1⟩, ⟨10, 1, .plain .pop⟩, ⟨11, 2, .branch .short .always (-8)⟩]
        none := by
      rw [show code.tokens = _ from tokens]
      exact .of_read rfl (.of_read rfl (.of_read rfl (.of_read rfl (.done 13))))
    have titled : readDocument crookedSymbols = .ok ("c", writeLength crookedEntries.length
        ++ (crookedEntries.flatMap (·.bytes) ++ [])) := by decide +kernel
    obtain ⟨-, -, refused⟩ := (files _ _ _ titled).2 _ _ (.whole (by decide) (by decide))
    refine ⟨image, rfl, _, rfl, refused [⟨0, 0, ⟨5, 7, 1⟩⟩] ⟨0, 0, ⟨6, 8, 1⟩⟩ [] _ rfl ?_ ?_⟩
    · exact .cons ⟨_, 1, _, at?, ⟨_, cut, rfl⟩, rfl, rfl⟩ .nil
    · rintro entry ⟨bytes, index, p, here, ⟨pieces, other, inCode⟩, starts, -⟩
      obtain rfl := Option.some.inj (at?.symm.trans here)
      obtain ⟨rfl, -⟩ := cut.unique other
      have elsewhere : ∀ q ∈ [(⟨0, 5, .ldstr "a"⟩ : Piece), ⟨5, 5, .ldcI4 1⟩, ⟨10, 1, .plain .pop⟩,
          ⟨11, 2, .branch .short .always (-8)⟩], q.start ≠ 6 := by decide
      exact elsewhere p (List.mem_of_getElem? inCode) starts

end ModuleImage

end Hotpatch
