import Hotpatch.Proofs.Image.Normal

/-! # Normal forms of files

Everything that can be read can be written again, and what is written then stays the same from there
on.

* **`Module.ofFiles`** — the module of an image, and of the symbols that may be read on top of it.
* **`Module.settled_of_ofFiles`**, **`Module.normal_of_ofFiles`** — it is normal.
* **`Module.ofFiles_of_keeps`** — what is written for a module is read as the renumbered module.
* **`Normal.ofFiles_of_write`** — a normal module is read again from what is written for it.
* **`Module.write_of_ofFiles`** — whatever was read, the files written for it are its normal form. -/

namespace Hotpatch

open Bounded (Fits)

namespace Module

/-- The **module of files**: that of an image, with symbols read on top if there are any. -/
def ofFiles (image : List UInt8) (symbols? : Option (List UInt8)) : Except Fault Module := do
  let (image, _) ← ModuleImage.read image
  match symbols? with
  | none => return image.module
  | some symbols =>
    match image.readSymbols symbols with
    | (read, .ok _) => return read.module
    | (_, .error fault) => throw fault

variable {m : Module} {image bytes symbols : List UInt8} {symbols? : Option (List UInt8)}

/-- A module **keeps** what files with or without symbols say: it has a document with symbols, and no
debug data without. -/
def Keeps (m : Module) : Option (List UInt8) → Prop
  | none => m.document? = none ∧ ∀ b ∈ m.bodies, b.points = []
  | some _ => m.document?.isSome

/-- **Modules of files have settled bodies.** -/
theorem settled_of_ofFiles (read : ofFiles image symbols? = .ok m) : ∀ b ∈ m.bodies, b.Settled := by
  obtain ⟨⟨imageRead, rest⟩, front, behind⟩ := Attempt.bind_eq_ok_iff.mp read
  have yields : ModuleImage.read.Yields imageRead := ⟨image, rest, front⟩
  cases symbols? with
  | none =>
    obtain rfl := Except.ok.inj behind
    obtain ⟨-, -, tokens, fresh⟩ := ModuleImage.fresh_of_read yields
    exact fun b mem => (fresh b mem).settled
  | some symbols =>
    dsimp only at behind
    split at behind
    · next read left readBack =>
      obtain rfl := Except.ok.inj behind
      obtain ⟨entries, document, rfl, -, -, found⟩ := ModuleImage.exists_entries_of_readSymbols readBack
      exact fun b mem => settled_of_read yields found mem
    · cases behind

/-- **Modules of files keep** what these say. -/
theorem keeps_of_ofFiles (read : ofFiles image symbols? = .ok m) : m.Keeps symbols? := by
  obtain ⟨⟨imageRead, rest⟩, front, behind⟩ := Attempt.bind_eq_ok_iff.mp read
  cases symbols? with
  | none =>
    obtain rfl := Except.ok.inj behind
    obtain ⟨-, noDocument, tokens, fresh⟩ := ModuleImage.fresh_of_read ⟨image, rest, front⟩
    exact ⟨noDocument, fun b mem => (fresh b mem).noPoints⟩
  | some symbols =>
    dsimp only at behind
    split at behind
    · next read left readBack =>
      obtain rfl := Except.ok.inj behind
      obtain ⟨entries, document, rfl, -⟩ := ModuleImage.exists_entries_of_readSymbols readBack
      rfl
    · cases behind

/-- **Modules of files are normal**, unless a body has too many points. -/
theorem normal_of_ofFiles (read : ofFiles image symbols? = .ok m)
    (few : ∀ b ∈ m.bodies, b.points.length < 4294967296) : m.Normal ∧ m.Keeps symbols? := by
  refine ⟨?_, keeps_of_ofFiles read⟩
  obtain ⟨⟨imageRead, rest⟩, front, behind⟩ := Attempt.bind_eq_ok_iff.mp read
  have yields : ModuleImage.read.Yields imageRead := ⟨image, rest, front⟩
  cases symbols? with
  | none =>
    obtain rfl := Except.ok.inj behind
    obtain ⟨-, noDocument, tokens, fresh⟩ := ModuleImage.fresh_of_read yields
    -- An image without symbols is one to which no entries are added.
    have normal := normal_of_read yields (show ([] : List PointEntry).length < 4294967296 by decide)
      nofun (show Fits (none : Option String) from nofun) few
    have same : ({ imageRead.module.addEntries [] with document? := none } : Module)
        = imageRead.module := by
      rw [← noDocument]
      rfl
    exact same ▸ normal
  | some symbols =>
    dsimp only at behind
    split at behind
    · next read left readBack =>
      obtain rfl := Except.ok.inj behind
      obtain ⟨entries, document, rfl, documentFits, count, found⟩ :=
        ModuleImage.exists_entries_of_readSymbols readBack
      have documentFits? : Fits (some document) := by
        intro text same
        exact Option.some.inj same ▸ documentFits
      exact normal_of_read yields count found documentFits? few
    · cases behind

/-- **What is written for a module** with its symbols is read as the renumbered module. -/
theorem ofFiles_of_write (wf : m.WellFormed) (fits : Fits m)
    (small : (TokenTable.empty.extend m.operands).Small) (written : m.write = .ok bytes)
    (writtenSymbols : m.writeSymbols = .ok symbols) :
    ofFiles bytes (some symbols) = .ok { m.renumber with document? := some (m.document?.getD "") } := by
  have front := (m.reads_of_write wf fits small written).alone
  have behind := readSymbols_of_write wf fits written writtenSymbols []
  rw [List.append_nil] at behind
  refine (Attempt.bind_of_ok front).trans ?_
  dsimp only
  rw [behind]
  exact congrArg Except.ok (addEntries_imaged _)

/-- **What is written for a module that keeps** what the files say is read as the renumbered module. -/
theorem ofFiles_of_keeps (wf : m.WellFormed) (fits : Fits m)
    (small : (TokenTable.empty.extend m.operands).Small) (keeps : m.Keeps symbols?)
    (written : m.write = .ok bytes) (writtenSymbols : ∀ symbols ∈ symbols?, m.writeSymbols = .ok symbols) :
    ofFiles bytes symbols? = .ok m.renumber := by
  cases symbols? with
  | none =>
    have front := (m.reads_of_write wf fits small written).alone
    refine (Attempt.bind_of_ok front).trans ?_
    exact congrArg Except.ok (imaged_eq_renumber keeps.1 keeps.2)
  | some symbols =>
    obtain ⟨document, has⟩ := Option.isSome_iff_exists.mp keeps
    rw [ofFiles_of_write wf fits small written (writtenSymbols symbols rfl), has, Option.getD_some, ← has]
    rfl

/-- **What is written for a normal module** is read as the same module. -/
theorem Normal.ofFiles_of_write (normal : m.Normal) (keeps : m.Keeps symbols?)
    (written : m.write = .ok bytes) (writtenSymbols : m.writeSymbols = .ok symbols) :
    ofFiles bytes (symbols?.map fun _ => symbols) = .ok m := by
  have same : m.Keeps (symbols?.map fun _ => symbols) := by cases symbols? <;> exact keeps
  rw [ofFiles_of_keeps normal.wellFormed normal.fits normal.small same written fun symbols' mem => ?_,
    normal.renumber_eq]
  obtain ⟨_, -, rfl⟩ := Option.map_eq_some_iff.mp mem
  exact writtenSymbols

/-- **Normal form**: a module that was read from any image, and from symbols if there were any, can be
written unless a body of it is too large, which is then the fault; and its symbols can always be
written. From the files that are written the same module is read, for which the same files are written
again. -/
theorem write_of_ofFiles (read : ofFiles image symbols? = .ok m)
    (few : ∀ b ∈ m.bodies, b.points.length < 4294967296) :
    (∃ symbols, m.writeSymbols = .ok symbols)
      ∧ ((∃ bytes, m.write = .ok bytes) ↔ ∀ b ∈ m.bodies, b.codeSize ≤ Body.maxCodeSize)
      ∧ (∀ fault, m.write = .error fault →
        ∃ b ∈ m.bodies, Body.maxCodeSize < b.codeSize ∧ fault = .codeTooLarge b.codeSize)
      ∧ ∀ bytes symbols, m.write = .ok bytes → m.writeSymbols = .ok symbols →
        ∃ m', ofFiles bytes (symbols?.map fun _ => symbols) = .ok m' ∧ m' = m
          ∧ m'.write = .ok bytes ∧ m'.writeSymbols = .ok symbols := by
  obtain ⟨normal, keeps⟩ := normal_of_ofFiles read few
  refine ⟨normal.exists_writeSymbols, ?_, ?_, ?_⟩
  · constructor
    · rintro ⟨bytes, written⟩ b mem
      exact (Body.current_of_fault?_eq_none (fault?_eq_none_of_write normal.wellFormed written mem)).2
    · exact normal.exists_write
  · intro fault failed
    by_cases size : ∃ b ∈ m.bodies, Body.maxCodeSize < b.codeSize
    · obtain ⟨b, mem, large, fails⟩ := normal.write_eq_codeTooLarge size
      exact ⟨b, mem, large, Except.error.inj (failed.symm.trans fails)⟩
    · obtain ⟨bytes, written⟩ := normal.exists_write fun b mem =>
        Nat.le_of_not_lt fun large => size ⟨b, mem, large⟩
      cases failed.symm.trans written
  · intro bytes symbols written writtenSymbols
    have again := normal.ofFiles_of_write keeps written writtenSymbols
    exact ⟨m, again, rfl, written, writtenSymbols⟩

/-- An image that is not in normal form: tokens that are doubled and not used, a seven for true, a
constant and a branch over it that could be shorter. -/
def looseImage : List UInt8 :=
  imageMagic ++ [1, 0] ++ [0, 0, 0, 0] ++ [0, 0, 0, 0] ++ [0, 0, 0, 0]
    ++ [3, 0, 0, 0, 1, 0, 0, 0, 98, 1, 0, 0, 0, 97, 1, 0, 0, 0, 97] ++ [0, 0, 0, 0] ++ [0, 0, 0, 0]
    ++ [1, 0, 0, 0] ++ [0, 0, 0, 0] ++ [0, 0, 0, 0] ++ [0, 0, 0, 0] ++ [0, 0, 0, 0]
    ++ [1, 0, 0, 0] ++ [0, 0, 0, 0] ++ [0, 0] ++ [0, 0, 0, 0] ++ [1] ++ [0, 0, 0, 0]
    ++ [2] ++ [8, 0] ++ [7] ++ [0, 0, 0, 0]
    ++ [13, 0, 0, 0, 0x72, 3, 0, 0, 0x70, 0x20, 1, 0, 0, 0, 0x26, 0x2b, 0xf8]

/-- Symbols for the image, with two entries for its method. -/
def splitSymbols : List UInt8 :=
  symbolsMagic ++ [0, 0, 0, 0] ++ [2, 0, 0, 0]
    ++ [0, 0, 0, 0, 0, 0, 0, 0, 1, 0, 0, 0, 5, 0, 0, 0, 3, 0, 0, 0, 1, 0]
    ++ [0, 0, 0, 0, 0, 0, 0, 0, 1, 0, 0, 0, 10, 0, 0, 0, 4, 0, 0, 0, 1, 0]

/-- The module they have. -/
def tight : Module :=
  { name := ""
    references := []
    markers := []
    types := [⟨"", "", ⟨0⟩, [], [⟨"", ⟨0⟩, [], .builtin .void, [], some {
      maxStack := 8
      initLocals := true
      locals := []
      points := [⟨⟨1⟩, 3, 1⟩, ⟨⟨2⟩, 4, 1⟩]
      code := [⟨⟨0⟩, 0, .ldstr "a"⟩, ⟨⟨1⟩, 5, .ldcI4 1⟩, ⟨⟨2⟩, 6, .plain .pop⟩,
        ⟨⟨3⟩, 7, .branch .short .always ⟨1⟩⟩] }⟩]⟩]
    document? := some "" }

/-- The module is written, to files that are not those it was read from, and read back the same. -/
theorem write_of_ofFiles_loose : ofFiles looseImage (some splitSymbols) = .ok tight
      ∧ (∀ b ∈ tight.bodies, b.points.length < 4294967296)
      ∧ ∃ bytes symbols, tight.write = .ok bytes ∧ tight.writeSymbols = .ok symbols
        ∧ ofFiles bytes (some symbols) = .ok tight := by
  have read : ofFiles looseImage (some splitSymbols) = .ok tight := by decide +kernel
  have few : ∀ b ∈ tight.bodies, b.points.length < 4294967296 := by decide
  obtain ⟨⟨symbols, writtenSymbols⟩, writable, -, again⟩ := write_of_ofFiles read few
  obtain ⟨bytes, written⟩ := writable.mpr (by decide)
  obtain ⟨_, readAgain, rfl, -, -⟩ := again bytes symbols written writtenSymbols
  exact ⟨read, few, bytes, symbols, written, writtenSymbols, readAgain⟩

end Module

end Hotpatch
