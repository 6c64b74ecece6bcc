import Hotpatch.Proofs.Image.WriteSymbols

/-! # Round trip of modules

The image and the symbols that are written for a well-formed module are read as the same module, but
that every handle is the position of its instruction.

* **`Module.readSymbols_of_write`** — what the symbols add to the image.
* **`Module.read_renumber_of_write`** — the whole way there and back. -/

namespace Hotpatch

open Bounded (Fits)

namespace Module

variable {m : Module} {bytes symbols : List UInt8}

/-- **Reading the symbols** of a module behind its image, in front of any bytes, gives the renumbered
module and leaves these bytes. -/
theorem readSymbols_of_write (wf : m.WellFormed) (fits : Fits m) (written : m.write = .ok bytes)
    (writtenSymbols : m.writeSymbols = .ok symbols) (rest : List UInt8) :
    m.imaged.readSymbols (symbols ++ rest)
      = (m.imaged.withSymbols (m.entries (·.renumber.points)) (m.document?.getD ""), .ok rest) := by
  obtain ⟨writable, rfl⟩ := (writeSymbols_eq_ok_iff wf).mp writtenSymbols
  have entries := writesEntries wf fits written fun place mem => (writable place mem).2
  obtain ⟨-, -, -, -, documentFits, pointedFits⟩ := fits
  have document : Fits (m.document?.getD "") := by
    cases has : m.document? with
    | none => exact (by decide : "".utf8ByteSize < 4294967296)
    | some text => exact documentFits text has
  have count : (m.entries (·.renumber.points)).length = m.pointed.length := List.length_map _
  rw [← count] at pointedFits ⊢
  exact ModuleImage.readSymbols_of_forall₂ document pointedFits entries rest

/-- **Round trip**: for a module whose bodies are well formed, in which no length is too large and
whose code names fewer than 2²⁴ different strings, types and methods, what is written as image and as
symbols is read from the front of any bytes; and it is read as the renumbered module. -/
theorem read_renumber_of_write (wf : m.WellFormed) (fits : Fits m)
    (strings : m.operands.strings.dedup.length < 16777216)
    (types : m.operands.types.dedup.length < 16777216)
    (methods : m.operands.methods.dedup.length < 16777216)
    (written : m.write = .ok bytes) (writtenSymbols : m.writeSymbols = .ok symbols)
    (rest restSymbols : List UInt8) :
    ∃ image withSymbols, ModuleImage.read (bytes ++ rest) = .ok (image, rest)
      ∧ image.readSymbols (symbols ++ restSymbols) = (withSymbols, .ok restSymbols)
      ∧ withSymbols.module = { m.renumber with document? := some (m.document?.getD "") } := by
  have small := TokenTable.small_extend_empty strings types methods
  have image := m.reads_of_write wf fits small written rest
  have symbolsRead := readSymbols_of_write wf fits written writtenSymbols restSymbols
  exact ⟨_, _, image, symbolsRead, addEntries_imaged _⟩

/-- A module with one body whose instructions are not laid out in the order they were added, with a
branch back to the middle one and a point on it. -/
def spun : Module :=
  { name := "Demo"
    references := ["Core"]
    markers := []
    types := [⟨"Demo", "Loop", .visible, [], [{
      name := "spin"
      attributes := ⟨0⟩
      parameters := []
      returnType := .builtin .void
      markers := []
      body? := some {
        maxStack := 8
        initLocals := false
        locals := []
        points := [⟨⟨0⟩, 3, 5⟩]
        code := [⟨⟨2⟩, 0, .ldstr "a"⟩, ⟨⟨0⟩, 5, .plain .pop⟩,
          ⟨⟨1⟩, 6, .branch .short .always ⟨0⟩⟩] } }]⟩]
    document? := none }

/-- The module is read back renumbered, and it is another one then. -/
theorem read_renumber_of_write_spun : ∃ bytes symbols, spun.write = .ok bytes
      ∧ spun.writeSymbols = .ok symbols ∧ spun.renumber ≠ spun
      ∧ ∀ rest restSymbols, ∃ image withSymbols, ModuleImage.read (bytes ++ rest) = .ok (image, rest)
        ∧ image.readSymbols (symbols ++ restSymbols) = (withSymbols, .ok restSymbols)
        ∧ withSymbols.module = { spun.renumber with document? := some "" } := by
  have wf : spun.WellFormed := by
    intro b mem
    obtain rfl := List.mem_singleton.mp mem
    exact ⟨by decide, by decide⟩
  have fits : Fits spun := by
    simp [Fits, spun, TypeSig.Fits, pointed, sites]
    decide
  obtain ⟨bytes, written⟩ := (exists_write_iff wf).mpr (show spun.fault? = none by decide)
  obtain ⟨symbols, writtenSymbols⟩ : ∃ symbols, spun.writeSymbols = .ok symbols :=
    ⟨_, (writeSymbols_eq_ok_iff wf).mpr ⟨by decide, rfl⟩⟩
  have back := read_renumber_of_write wf fits (by decide) (by decide) (by decide) written writtenSymbols
  exact ⟨bytes, symbols, written, writtenSymbols, by decide, back⟩

end Module

end Hotpatch
