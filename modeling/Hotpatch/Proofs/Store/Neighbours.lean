import Hotpatch.Proofs.Files.Paths
import Hotpatch.Store.ImageStore

/-! # Neighbours of a module

The files next to that of a module: its symbols, and those that stand for both while they are written. A
path that is not that of its own symbols has three other places next to it.

* **`components_stagingPath`** — where a file is staged.
* **`getLast?_symbolsPath`** — the name of a symbols file.
* **`stagingPath_apart`** — neither is another's. -/

namespace Hotpatch

open Hotpatch.Path (IsName)

variable {path : Path} {name : String}

/-! ## (1) Staging -/

/-- The name under which a file is **staged**, given the one it has. -/
def stagingName (name : String) : String :=
  "." ++ name ++ ".ilpatch.tmp"

/-- A name under which a file is staged is one. -/
theorem isName_stagingName (noSlash : '/' ∉ name.toList) : IsName (stagingName name).toList := by
  have text : (stagingName name).toList = '.' :: (name.toList ++ ".ilpatch.tmp".toList) := by
    rw [stagingName, String.toList_append, String.toList_append, List.append_assoc]
    rfl
  refine .of_length ?_ ?_
  · have ending : ".ilpatch.tmp".toList.length = 12 := by decide
    rw [text, List.length_cons, List.length_append]
    omega
  · rw [text, List.mem_cons, List.mem_append, not_or, not_or]
    exact ⟨by decide, noSlash, by decide⟩

/-- A file is staged **next to its place**. -/
theorem components_stagingPath (named : path.fileName? = some name) :
    (stagingPath path).components
      = (path.parent?.getD ⟨""⟩).components ++ [.name (stagingName name)] := by
  obtain ⟨-, -, isName, -⟩ := Path.exists_of_fileName? named
  rw [stagingPath, Path.withFileName, named]
  exact Path.components_join _ (isName_stagingName isName.noSlash)

/-- The last component of where a file is staged. -/
theorem getLast?_stagingPath (path : Path) :
    (stagingPath path).components.getLast? = some (.name (stagingName (path.fileName?.getD ""))) := by
  cases named : path.fileName? with
  | some name => rw [components_stagingPath named, List.getLast?_concat, Option.getD_some]
  | none =>
    rw [stagingPath, Path.withFileName, named]
    exact (congrArg List.getLast? (Path.components_join path (isName_stagingName
      (by decide : '/' ∉ "".toList)))).trans List.getLast?_concat

/-! ## (2) Symbols -/

/-- A stem is made of characters of the name. -/
theorem mem_of_mem_stem {name : List Char} {c : Char} (mem : c ∈ Path.stem name) : c ∈ name := by
  rw [Path.stem] at mem
  split at mem
  · exact mem
  · have before := List.mem_of_mem_tail (List.mem_reverse.mp mem)
    exact List.mem_reverse.mp (List.dropWhile_sublist _ |>.mem before)

/-- The last component of a **symbols path** is a name with an extension of its own, unless it leads to
the parent. -/
theorem getLast?_symbolsPath (named : path.fileName? = some name) :
    (symbolsPath path).components.getLast? = some .parent
      ∨ ∃ stem, (symbolsPath path).components.getLast? = some (.name (stem ++ ".ilpdb")) := by
  obtain ⟨front, trimmed, isName, -⟩ := Path.exists_of_fileName? named
  obtain ⟨rest, whole, -⟩ := Path.trimmed_spec true (Path.pieces path.text.toList)
  rw [trimmed] at whole
  have noSlash {piece : List Char} (own : '/' ∉ piece) : ∀ piece' ∈ front ++ [piece], '/' ∉ piece' := by
    intro piece' mem
    rcases List.mem_append.mp mem with mem | mem
    · exact Path.slash_notMem (whole ▸ List.mem_append_left _ (List.mem_append_left _ mem))
    · obtain rfl := List.mem_singleton.mp mem
      exact own
  rw [symbolsPath, Path.withExtension, named]
  dsimp only
  rw [trimmed, List.dropLast_concat]
  split
  · left
    have components := Path.components_ofPieces front (by decide : ['.', '.'] ≠ []) (noSlash (by decide))
    rw [components]
    cases front with
    | nil => rfl
    | cons first more =>
      rw [Path.spell_append (List.cons_ne_nil _ _)]
      exact List.getLast?_concat
  · right
    have extended : IsName (Path.stem name.toList ++ ".ilpdb".toList) := by
      refine .of_length ?_ fun slash => ?_
      · have ending : ".ilpdb".toList.length = 6 := by decide
        rw [List.length_append]
        omega
      · rcases List.mem_append.mp slash with mem | mem
        · exact isName.noSlash (mem_of_mem_stem mem)
        · exact absurd mem (by decide)
    refine ⟨String.ofList (Path.stem name.toList), ?_⟩
    have components := Path.components_ofPieces front extended.nonempty (noSlash extended.noSlash)
    rw [Path.spell_append_name front extended, String.ofList_append, String.ofList_toList] at components
    exact (congrArg List.getLast? components).trans List.getLast?_concat

/-- **No place is another's**: a module with symbols at another path than its own has both staged at two
more, and the symbols are at neither. -/
theorem stagingPath_apart (apart : path.components ≠ (symbolsPath path).components) :
    (stagingPath path).components ≠ (symbolsPath path).components
      ∧ (stagingPath path).components ≠ (stagingPath (symbolsPath path)).components := by
  cases named : path.fileName? with
  | none =>
    have same : symbolsPath path = path := by rw [symbolsPath, Path.withExtension, named]
    exact absurd (congrArg Path.components same.symm) apart
  | some name =>
    have staging := getLast?_stagingPath path
    rw [named, Option.getD_some] at staging
    refine ⟨fun same => ?_, fun same => ?_⟩
    · rw [same] at staging
      rcases getLast?_symbolsPath named with up | ⟨stem, extended⟩
      · cases up.symm.trans staging
      · -- The two names end in different characters.
        have names := Path.Component.name.inj (Option.some.inj (extended.symm.trans staging))
        have ends := congrArg (·.toList.getLast?) names
        simp [stagingName, List.getLast?_cons] at ends
    · -- One name and one parent make one path.
      rw [same, getLast?_stagingPath] at staging
      have names := Path.Component.name.inj (Option.some.inj staging)
      have equal : (symbolsPath path).fileName?.getD "" = name := by
        simpa [stagingName, String.ext_iff] using names
      have symbolsNamed : (symbolsPath path).fileName? = some name := by
        cases has : (symbolsPath path).fileName? with
        | some other => rw [← equal, has, Option.getD_some]
        | none =>
          rw [has, Option.getD_none] at equal
          obtain ⟨-, -, isName, -⟩ := Path.exists_of_fileName? named
          exact absurd (congrArg String.toList equal.symm) isName.nonempty
      rw [components_stagingPath named, components_stagingPath symbolsNamed] at same
      rw [Path.components_of_fileName? named, Path.components_of_fileName? symbolsNamed,
        List.append_cancel_right same] at apart
      exact apart rfl

end Hotpatch
