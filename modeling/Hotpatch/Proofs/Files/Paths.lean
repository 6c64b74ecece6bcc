import Hotpatch.Files.Path

/-! # Components of paths

What a path says name by name, for paths that are built from others.

* **`Path.spell`** — the components that pieces stand for.
* **`Path.components_eq`**, **`Path.components_ofPieces`** — the components of a path by its pieces.
* **`Path.components_join`** — a name below a path.
* **`Path.components_of_fileName?`** — the file name is the last component, and the parent has the rest.
* **`Path.fileName?_of_components`** — a last component that is a name is the file name. -/

namespace Hotpatch

namespace Path

variable {p : Path} {piece name : List Char} {ps front : List (List Char)} {first : Bool}

/-! ## (1) Pieces -/

/-- Pieces are made by splitting at the slashes. -/
theorem pieces_eq_splitOn (cs : List Char) : pieces cs = cs.splitOn '/' := by
  induction cs with
  | nil => rfl
  | cons c cs ih =>
    have some := List.splitOn_ne_nil '/' cs
    rw [pieces, ih, List.splitOn_cons_eq_if_modifyHead]
    by_cases slash : c = '/'
    · rw [if_pos slash, if_pos (beq_iff_eq.mpr slash)]
    · rw [if_neg slash, if_neg (mt beq_iff_eq.mp slash)]
      cases split : cs.splitOn '/' with
      | nil => exact absurd split some
      | cons piece more => rfl

/-- No piece holds a slash. -/
theorem slash_notMem {cs : List Char} (mem : piece ∈ pieces cs) : '/' ∉ piece := by
  induction cs generalizing piece with
  | nil =>
    obtain rfl := List.mem_singleton.mp mem
    exact List.not_mem_nil
  | cons c cs ih =>
    rw [pieces] at mem
    split at mem
    · rcases List.mem_cons.mp mem with rfl | mem
      · exact List.not_mem_nil
      · exact ih mem
    · next other =>
      split at mem
      · next head more split =>
        rw [split] at ih
        rcases List.mem_cons.mp mem with rfl | mem
        · exact fun slash => (List.mem_cons.mp slash).elim (other ·.symm) (ih List.mem_cons_self)
        · exact ih (List.mem_cons_of_mem _ mem)
      · obtain rfl := List.mem_singleton.mp mem
        exact fun slash => other (List.mem_singleton.mp slash).symm

/-- A path of some pieces has these pieces. -/
theorem pieces_ofPieces (some : ps ≠ []) (noSlash : ∀ piece ∈ ps, '/' ∉ piece) :
    pieces (ofPieces ps).text.toList = ps := by
  have text : (ofPieces ps).text.toList = ['/'].intercalate ps := by
    rw [ofPieces, String.toList_intercalate, List.map_map]
    exact congrArg _ ((List.map_congr_left fun _ _ => String.toList_ofList).trans (List.map_id ps))
  rw [text, pieces_eq_splitOn, List.splitOn_intercalate '/' noSlash some]

/-! ## (2) Components -/

/-- The components that pieces **spell**. -/
def spell : List (List Char) → List Component
  | [] => []
  | first :: rest =>
    (if first = [] then [.root] else if first = ['.'] then [.current]
      else (Component.ofPiece? first).toList) ++ rest.filterMap Component.ofPiece?

/-- **Components are spelled by the pieces**, unless there is no text. -/
theorem components_eq (nonempty : p.text.toList ≠ []) : p.components = spell (pieces p.text.toList) := by
  rw [components, isAbsolute]
  generalize p.text.toList = text at nonempty ⊢
  cases text with
  | nil => exact absurd rfl nonempty
  | cons c cs =>
    rw [pieces]
    by_cases slash : c = '/'
    · subst slash
      rfl
    · rw [if_neg slash, if_neg (by simpa using slash)]
      split
      · next piece more split =>
        rw [spell, if_neg (List.cons_ne_nil _ _)]
        by_cases dot : c :: piece = ['.']
        · rw [if_pos dot, dot]
          rfl
        · rw [if_neg dot, if_neg (by simpa using dot)]
          rfl
      · by_cases dot : [c] = ['.']
        · rw [spell, if_neg (List.cons_ne_nil _ _), if_pos dot, dot]
          rfl
        · rw [spell, if_neg (List.cons_ne_nil _ _), if_neg dot, if_neg (by simpa using dot)]
          rfl

/-- The first piece of an **absolute path** is empty. -/
theorem isAbsolute_iff (nonempty : p.text.toList ≠ []) :
    p.isAbsolute = true ↔ (pieces p.text.toList).head? = some [] := by
  rw [isAbsolute]
  generalize p.text.toList = text at nonempty ⊢
  cases text with
  | nil => exact absurd rfl nonempty
  | cons c cs =>
    rw [pieces]
    by_cases slash : c = '/'
    · simp [slash]
    · rw [if_neg slash]
      split <;> simp [slash]

/-- More pieces. -/
theorem spell_append (some : front ≠ []) (ps : List (List Char)) :
    spell (front ++ ps) = spell front ++ ps.filterMap Component.ofPiece? := by
  cases front with
  | nil => exact absurd rfl some
  | cons first rest => rw [List.cons_append, spell, spell, List.filterMap_append, List.append_assoc]

/-- A piece that is a **name**. -/
structure IsName (piece : List Char) : Prop where
  nonempty : piece ≠ []
  notCurrent : piece ≠ ['.']
  notParent : piece ≠ ['.', '.']
  noSlash : '/' ∉ piece

/-- A piece of more than two characters is a name. -/
theorem IsName.of_length (long : 2 < piece.length) (noSlash : '/' ∉ piece) : IsName piece := by
  refine ⟨?_, ?_, ?_, noSlash⟩ <;> rintro rfl <;> exact absurd long (by decide)

/-- A name stands for itself. -/
theorem IsName.ofPiece? (isName : IsName name) :
    Component.ofPiece? name = some (.name (String.ofList name)) := by
  rw [Component.ofPiece?, if_neg (by simp [isName.nonempty, isName.notCurrent]), if_neg isName.notParent]

/-- **A piece behind others** that stands for a component is the last one. -/
theorem spell_append_of_ofPiece? {c : Component} (front : List (List Char))
    (stands : Component.ofPiece? piece = some c) : spell (front ++ [piece]) = spell front ++ [c] := by
  cases front with
  | nil =>
    have notEmpty : piece ≠ [] := by rintro rfl; cases stands
    have notCurrent : piece ≠ ['.'] := by rintro rfl; cases stands
    rw [List.nil_append, spell, spell, if_neg notEmpty, if_neg notCurrent, stands]
    rfl
  | cons first rest =>
    rw [spell_append (List.cons_ne_nil _ _), List.filterMap_cons_some stands]
    rfl

/-- **A name behind other pieces** is the last component. -/
theorem spell_append_name (front : List (List Char)) (isName : IsName name) :
    spell (front ++ [name]) = spell front ++ [.name (String.ofList name)] :=
  spell_append_of_ofPiece? front isName.ofPiece?

/-- **The components of a path of pieces**, if they do not make an empty text. -/
theorem components_ofPieces (front : List (List Char)) (nonempty : piece ≠ [])
    (noSlash : ∀ piece' ∈ front ++ [piece], '/' ∉ piece') :
    (ofPieces (front ++ [piece])).components = spell (front ++ [piece]) := by
  have same := pieces_ofPieces (List.append_ne_nil_of_right_ne_nil front (List.cons_ne_nil piece []))
    noSlash
  have text : (ofPieces (front ++ [piece])).text.toList ≠ [] := by
    intro none
    rw [none] at same
    obtain ⟨rfl, h⟩ | ⟨-, h⟩ := List.append_eq_singleton_iff.mp same.symm
    · exact nonempty (List.singleton_inj.mp h)
    · cases h
  rw [components_eq text, same]

/-- Pieces behind a slash come after those in front of it. -/
@[simp] theorem pieces_append (front behind : List Char) :
    pieces (front ++ '/' :: behind) = pieces front ++ pieces behind := by
  rw [pieces_eq_splitOn, List.splitOn_append_cons_self, ← pieces_eq_splitOn, ← pieces_eq_splitOn]

/-- There is always a piece. -/
@[simp] theorem pieces_ne_nil (cs : List Char) : pieces cs ≠ [] := by
  rw [pieces_eq_splitOn]
  exact List.splitOn_ne_nil '/' cs

/-- **A name behind a slash** is the last component. -/
theorem components_of_slash {text name : String} (isName : IsName name.toList) {front : List Char}
    (whole : text.toList = front ++ '/' :: name.toList) :
    (⟨text⟩ : Path).components = spell (pieces front) ++ [.name name] := by
  rw [components_eq (by rw [whole]; exact List.append_ne_nil_of_right_ne_nil _ (List.cons_ne_nil _ _)),
    whole, pieces_append, pieces_eq_splitOn name.toList, List.splitOn_eq_singleton isName.noSlash,
    spell_append_name _ isName, String.ofList_toList]

/-- **A name below a path** is one component more. -/
theorem components_join (base : Path) {name : String} (isName : IsName name.toList) :
    (base.join name).components = base.components ++ [.name name] := by
  have relative : name.toList.head? ≠ some '/' := fun slash =>
    isName.noSlash (List.mem_of_head? slash)
  rw [join, if_neg (by simpa using relative)]
  split
  · next joins =>
    rcases Bool.or_eq_true_iff.mp joins with empty | slash
    · -- There is nothing in front of the name.
      obtain ⟨text⟩ := base
      obtain rfl : text = "" := String.isEmpty_iff.mp empty
      rw [components_eq (by rw [String.empty_append]; exact isName.nonempty), String.empty_append,
        pieces_eq_splitOn, List.splitOn_eq_singleton isName.noSlash, ← List.nil_append [_],
        spell_append_name _ isName, String.ofList_toList]
      rfl
    · obtain ⟨front, ends⟩ := List.getLast?_eq_some_iff.mp (beq_iff_eq.mp slash)
      have same : base.components = spell (pieces front) := by
        rw [components_eq (by rw [ends]; exact List.concat_ne_nil _ _), ends, pieces_append,
          spell_append (pieces_ne_nil front)]
        exact List.append_nil _
      rw [same]
      refine components_of_slash isName ?_
      rw [String.toList_append, ends, List.append_assoc, List.singleton_append]
  · next joins =>
    have nonempty : base.text.toList ≠ [] := fun none => by
      rw [String.toList_eq_nil_iff.mp none] at joins
      exact joins rfl
    rw [components_eq nonempty]
    refine components_of_slash isName ?_
    rw [String.toList_append, String.toList_append, List.append_assoc]
    rfl

/-! ## (3) Last names -/

/-- A piece makes a component if it is not empty and, but in front of all others, no dot. -/
@[simp]
theorem significant_iff : significant first piece = true ↔ piece ≠ [] ∧ (piece = ['.'] → first = true) := by
  simp [significant, Decidable.imp_iff_not_or]

/-- **Trimming** takes off pieces that stand for nothing behind the first, and ends at one that does not. -/
theorem trimmed_spec (first : Bool) (ps : List (List Char)) :
    ∃ rest, ps = trimmed first ps ++ rest ∧ (∀ piece ∈ rest, piece = [] ∨ piece = ['.'])
      ∧ (∀ piece ∈ (trimmed first ps).getLast?, piece ≠ [])
      ∧ (first = true → trimmed first ps = [] → ps.head? ≠ some ['.']) := by
  induction ps generalizing first with
  | nil => exact ⟨[], rfl, nofun, nofun, nofun⟩
  | cons piece more ih =>
    obtain ⟨rest, whole, insignificant, last, -⟩ := ih false
    rw [trimmed]
    split
    · next none =>
      rw [none, List.nil_append] at whole
      subst whole
      split
      · next takes =>
        refine ⟨more, rfl, insignificant, fun last here => ?_, nofun⟩
        obtain rfl := Option.some.inj here
        exact (significant_iff.mp takes).1
      · next skips =>
        rw [significant_iff, not_and] at skips
        refine ⟨piece :: more, rfl, List.forall_mem_cons.mpr ⟨?_, insignificant⟩, nofun, ?_⟩
        · exact Decidable.or_iff_not_imp_left.mpr fun some => (Decidable.not_imp_iff_and_not.mp (skips some)).1
        · rintro rfl - same
          obtain rfl := Option.some.inj same
          exact skips (List.cons_ne_nil _ _) fun _ => rfl
    · next rest' some =>
      refine ⟨rest, congrArg (piece :: ·) whole, insignificant, fun final here => ?_, nofun⟩
      refine last final ?_
      rwa [List.getLast?_cons_of_ne_nil some] at here

/-- Pieces that stand for nothing spell nothing. -/
theorem filterMap_ofPiece?_eq_nil (none : ∀ piece ∈ ps, piece = [] ∨ piece = ['.']) :
    ps.filterMap Component.ofPiece? = [] := by
  refine List.filterMap_eq_nil_iff.mpr fun piece mem => ?_
  rcases none piece mem with rfl | rfl <;> rfl

/-- Trimmed pieces spell the same, unless none is left. -/
theorem spell_trimmed (some : trimmed true ps ≠ []) : spell (trimmed true ps) = spell ps := by
  obtain ⟨rest, whole, insignificant, -⟩ := trimmed_spec true ps
  have same := spell_append some rest
  rw [← whole, filterMap_ofPiece?_eq_nil insignificant, List.append_nil] at same
  exact same.symm

/-- **A file name** is the last of the trimmed pieces. -/
theorem exists_of_fileName? {name : String} (named : p.fileName? = some name) :
    ∃ front, trimmed true (pieces p.text.toList) = front ++ [name.toList] ∧ IsName name.toList
      ∧ p.components = spell front ++ [.name name] := by
  rw [fileName?] at named
  split at named
  · cases named
  · next piece last =>
    split at named
    · cases named
    · next notDots =>
      obtain rfl := Option.some.inj named
      obtain ⟨notCurrent, notParent⟩ : piece ≠ ['.'] ∧ piece ≠ ['.', '.'] := by simpa using notDots
      obtain ⟨front, trimmed⟩ := List.getLast?_eq_some_iff.mp last
      obtain ⟨rest, whole, -, significant, -⟩ := trimmed_spec true (pieces p.text.toList)
      have inside : piece ∈ pieces p.text.toList := by
        rw [whole, trimmed]
        exact List.mem_append_left _ (List.mem_append_right _ List.mem_cons_self)
      have isName : IsName piece :=
        ⟨significant piece last, notCurrent, notParent, slash_notMem inside⟩
      rw [String.toList_ofList]
      refine ⟨front, trimmed, isName, ?_⟩
      have nonempty : p.text.toList ≠ [] := fun none => by
        rw [none] at last
        cases last
      rw [components_eq nonempty, ← spell_trimmed (by rw [trimmed]; exact List.concat_ne_nil _ _), trimmed,
        spell_append_name front isName]

/-- The pieces of a parent are those before the last, trimmed again. -/
theorem parent?_of_trimmed (ends : trimmed true (pieces p.text.toList) = front ++ [piece]) :
    p.parent? = some (if trimmed true front = [] then if p.isAbsolute then ⟨"/"⟩ else ⟨""⟩
      else ofPieces (trimmed true front)) := by
  rw [parent?, ends]
  split
  · next none => exact absurd none (List.concat_ne_nil _ _)
  · rewrite [List.dropLast_concat]
    split
    · next none => rw [if_pos none]
    · next some => rw [if_neg some]

/-- Where nothing is left of the pieces, a root is spelled by them or nothing is. -/
theorem spell_of_trimmed_eq_nil (none : trimmed true front = []) :
    spell front = if front.head? = some [] then [.root] else [] := by
  obtain ⟨rest, whole, insignificant, -, notCurrent⟩ := trimmed_spec true front
  rw [none, List.nil_append] at whole
  subst whole
  cases front with
  | nil => rfl
  | cons first more =>
    obtain ⟨head, others⟩ := List.forall_mem_cons.mp insignificant
    obtain rfl : first = [] := head.resolve_right fun dot => notCurrent rfl none (congrArg some dot)
    rw [spell, filterMap_ofPiece?_eq_nil others]
    rfl

/-- Trimmed pieces **end in a dot** only if there is no other. -/
theorem trimmed_of_getLast?_eq_dot (last : (trimmed first ps).getLast? = some ['.']) :
    first = true ∧ trimmed first ps = [['.']] := by
  induction ps generalizing first with
  | nil => cases last
  | cons piece more ih =>
    rw [trimmed] at last ⊢
    split at last
    · split at last
      · next takes =>
        obtain rfl := Option.some.inj last
        rw [if_pos takes]
        exact ⟨(significant_iff.mp takes).2 rfl, rfl⟩
      · cases last
    · next some =>
      rw [List.getLast?_cons_of_ne_nil some] at last
      cases (ih last).1

/-- **A path that ends in a name** has it as its file name. -/
theorem fileName?_of_components {above : List Component} {name : String}
    (ends : p.components = above ++ [.name name]) : p.fileName? = some name := by
  replace ends : p.components.getLast? = .some (.name name) := by rw [ends, List.getLast?_concat]
  have nonempty : p.text.toList ≠ [] := fun none => by
    rw [components, isAbsolute, none] at ends
    cases ends
  rw [components_eq nonempty] at ends
  have some : trimmed true (pieces p.text.toList) ≠ [] := fun none => by
    rw [spell_of_trimmed_eq_nil none] at ends
    split at ends <;> cases ends
  obtain ⟨front, piece, whole⟩ : ∃ front piece, trimmed true (pieces p.text.toList) = front ++ [piece] :=
    ⟨_, _, (List.dropLast_concat_getLast some).symm⟩
  have last : (trimmed true (pieces p.text.toList)).getLast? = .some piece := by
    rw [whole, List.getLast?_concat]
  obtain ⟨-, -, -, notEmpty, -⟩ := trimmed_spec true (pieces p.text.toList)
  rw [← spell_trimmed some] at ends
  have notCurrent : piece ≠ ['.'] := by
    rintro rfl
    rw [(trimmed_of_getLast?_eq_dot last).2] at ends
    cases ends
  have stands : Component.ofPiece? piece
      = .some (if piece = ['.', '.'] then .parent else .name (String.ofList piece)) := by
    rw [Component.ofPiece?, if_neg (by simp [notEmpty piece last, notCurrent])]
    split <;> rfl
  rw [whole, spell_append_of_ofPiece? front stands, List.getLast?_concat] at ends
  split at ends
  · cases ends
  · next notParent =>
    obtain rfl := Component.name.inj (Option.some.inj ends)
    rw [fileName?, last]
    exact if_neg (by simp [notCurrent, notParent])

/-- **The parent** has all components but the file name. -/
theorem components_of_fileName? {name : String} (named : p.fileName? = some name) :
    p.components = (p.parent?.getD ⟨""⟩).components ++ [.name name] := by
  obtain ⟨front, ends, isName, same⟩ := exists_of_fileName? named
  obtain ⟨rest, whole, -⟩ := trimmed_spec true (pieces p.text.toList)
  rw [ends] at whole
  rw [same, parent?_of_trimmed ends, Option.getD_some]
  refine congrArg (· ++ _) ?_
  by_cases none : trimmed true front = []
  · have nonempty : p.text.toList ≠ [] := fun none => by
      rw [none] at ends
      cases front <;> cases ends
    have absolute : p.isAbsolute = true ↔ front.head? = some [] := by
      rw [isAbsolute_iff nonempty, whole]
      cases front with
      | nil => exact ⟨fun h => absurd (Option.some.inj h) isName.nonempty, nofun⟩
      | cons first more => rfl
    rw [if_pos none, spell_of_trimmed_eq_nil none]
    split
    · next rooted => rw [if_pos (absolute.mpr rooted)]; rfl
    · next unrooted => rw [if_neg (mt absolute.mp unrooted)]; rfl
  · rw [if_neg none, ← spell_trimmed none]
    obtain ⟨left, frontWhole, -, last, -⟩ := trimmed_spec true front
    obtain ⟨before, piece, ends⟩ : ∃ before piece, trimmed true front = before ++ [piece] :=
      ⟨_, _, (List.dropLast_concat_getLast none).symm⟩
    rw [ends] at last frontWhole ⊢
    refine (components_ofPieces before (last piece List.getLast?_concat) fun piece' mem => ?_).symm
    have inside : piece' ∈ pieces p.text.toList := by
      rw [whole, frontWhole]
      exact List.mem_append_left _ (List.mem_append_left _ (List.mem_append_left _ mem))
    exact slash_notMem inside

end Path

end Hotpatch
