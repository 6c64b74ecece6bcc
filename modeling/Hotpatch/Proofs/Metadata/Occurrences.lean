import Hotpatch.Proofs.Metadata.Requests

/-! # First occurrences

The rows of a table that answers requests are what was asked for, each thing once and in the order in which
it was first asked for.

* **`FirstOccurrences`** — the values of a list, where they first occur; `FirstOccurrences.intern` adds one
  more value, and `FirstOccurrences.internAll` a run of them.
* **`TokenTable.Enumerates`** — a table with the first occurrences of all that is named by tokens, of which
  there is just one (`Enumerates.unique`).
* **`enumerates_interned`** — a table of any rows, with its values interned.
* **`Enumerates.answer`** — a table goes on enumerating what is asked for.
* **`answer_fst_eq_map`** — each token is that of the row of its value. -/

namespace Hotpatch

/-! ## (1) Lists -/

/-- The **first occurrences** of some values: each of them once, and the earlier ones in front. -/
structure FirstOccurrences {α : Type} [DecidableEq α] (values rows : List α) : Prop where
  once : rows.Nodup
  mem_iff : ∀ value, value ∈ rows ↔ value ∈ values
  ordered : rows.Pairwise fun earlier later => values.idxOf earlier < values.idxOf later

section Rows

open TokenTable (intern internAll)

variable {α : Type} [DecidableEq α] {values rows rows' : List α} {value : α}

/-- Nothing occurs in an empty list. -/
@[simp] theorem firstOccurrences_nil : FirstOccurrences ([] : List α) [] :=
  ⟨List.nodup_nil, fun _ => Iff.rfl, .nil⟩

/-- **Only one list** is that of the first occurrences. -/
theorem FirstOccurrences.unique (first : FirstOccurrences values rows)
    (second : FirstOccurrences values rows') : rows = rows' := by
  have same : rows.Perm rows' := (List.perm_ext_iff_of_nodup first.once second.once).mpr fun v =>
    (first.mem_iff v).trans (second.mem_iff v).symm
  exact same.eq_of_pairwise (fun v w _ _ before behind => absurd behind before.asymm)
    first.ordered second.ordered

/-- A value that is in the rows is given its row, and they stay as they are. -/
theorem TokenTable.intern_of_mem (mem : value ∈ rows) : intern rows value = (rows.idxOf value, rows) := by
  rw [intern, List.idxOf_eq_getD_idxOf?]
  cases found : rows.idxOf? value with
  | none => exact absurd mem (List.idxOf?_eq_none_iff.mp found)
  | some row => rfl

/-- A value that is not in the rows gets a new one behind them. -/
theorem TokenTable.intern_of_notMem (notMem : value ∉ rows) :
    intern rows value = (rows.length, rows ++ [value]) := by
  rw [intern, List.idxOf?_eq_none_iff.mpr notMem]

/-- **One more value** is listed behind the others, unless it was there. -/
theorem FirstOccurrences.intern (first : FirstOccurrences values rows) (value : α) :
    FirstOccurrences (values ++ [value]) (intern rows value).2 := by
  -- What occurred before occurs at the same place in the longer list.
  have earlier {v : α} (mem : v ∈ rows) : (values ++ [value]).idxOf v = values.idxOf v :=
    List.idxOf_append_of_mem ((first.mem_iff v).mp mem)
  have kept : rows.Pairwise fun v w => (values ++ [value]).idxOf v < (values ++ [value]).idxOf w := by
    refine first.ordered.imp_of_mem fun here there order => ?_
    rwa [earlier here, earlier there]
  by_cases mem : value ∈ rows
  · rw [TokenTable.intern_of_mem mem]
    refine ⟨first.once, fun v => ?_, kept⟩
    rw [List.mem_append, List.mem_singleton, first.mem_iff]
    exact ⟨.inl, fun h => h.elim id fun same => same ▸ (first.mem_iff value).mp mem⟩
  · rw [TokenTable.intern_of_notMem mem]
    have absent : value ∉ values := fun occurs => mem ((first.mem_iff value).mpr occurs)
    refine ⟨?_, fun v => ?_, ?_⟩
    · exact first.once.append (List.nodup_singleton value) (List.disjoint_singleton.mpr mem)
    · rw [List.mem_append, List.mem_append, first.mem_iff]
    · refine List.pairwise_append.mpr ⟨kept, List.pairwise_singleton _ _, fun v here w isNew => ?_⟩
      obtain rfl := List.mem_singleton.mp isNew
      rw [earlier here, List.idxOf_append_of_notMem absent]
      have inside := List.idxOf_lt_length_of_mem ((first.mem_iff v).mp here)
      omega

/-- **A run of values** is listed the same way, one after the other. -/
theorem FirstOccurrences.internAll (first : FirstOccurrences values rows) (more : List α) :
    FirstOccurrences (values ++ more) (internAll rows more) := by
  induction more generalizing values rows with
  | nil => rwa [List.append_nil]
  | cons value more ih =>
    have next := ih (first.intern value)
    rwa [List.append_assoc, List.singleton_append] at next

end Rows

/-! ## (2) Tables -/

namespace TokenTable

/-- A table **enumerates** operands if its rows are their first occurrences. -/
structure Enumerates (t operands : TokenTable) : Prop where
  strings : FirstOccurrences operands.strings t.strings
  types : FirstOccurrences operands.types t.types
  methods : FirstOccurrences operands.methods t.methods

variable {t t' operands : TokenTable}

/-- **Only one table** enumerates given operands. -/
theorem Enumerates.unique (first : t.Enumerates operands) (second : t'.Enumerates operands) : t = t' := by
  cases t
  cases t'
  rw [mk.injEq]
  exact ⟨first.strings.unique second.strings, first.types.unique second.types,
    first.methods.unique second.methods⟩

/-- The empty table enumerates nothing. -/
@[simp] theorem enumerates_empty : empty.Enumerates empty :=
  ⟨firstOccurrences_nil, firstOccurrences_nil, firstOccurrences_nil⟩

/-- **A table goes on enumerating** the operands that are interned. -/
theorem Enumerates.extend (enumerates : t.Enumerates operands) (more : TokenTable) :
    (t.extend more).Enumerates (operands.append more) :=
  ⟨enumerates.strings.internAll _, enumerates.types.internAll _, enumerates.methods.internAll _⟩

/-- **Interning the values of a table** enumerates them: repetitions go, and all else stays in its order. -/
theorem enumerates_interned (t : TokenTable) : t.interned.Enumerates t := by
  rw [interned_eq]
  exact enumerates_empty.extend t

/-- It lists just what is among them. -/
theorem Enumerates.listed_iff (enumerates : t.Enumerates operands) (r : Request) :
    r.Listed t ↔ r.Listed operands := by
  cases r with
  | string text => exact enumerates.strings.mem_iff text
  | type sig => exact enumerates.types.mem_iff sig
  | method ref => exact enumerates.methods.mem_iff ref

/-! ## (3) Answers -/

/-- The **row** of what is asked for. -/
def Request.row (t : TokenTable) : Request → Nat
  | string text => t.strings.idxOf text
  | type sig => t.types.idxOf sig
  | method ref => t.methods.idxOf ref

/-- A request for what is listed is answered with the token of its row, and adds nothing. -/
theorem Request.ask_of_listed {r : Request} (listed : r.Listed t) :
    r.ask t = (Token.ofRow r.table (r.row t), t) := by
  cases r with
  | string text =>
    rw [ask, internString, intern_of_mem listed]
    rfl
  | type sig =>
    rw [ask, internType, intern_of_mem listed]
    rfl
  | method ref =>
    rw [ask, internMethod, intern_of_mem listed]
    rfl

/-- **A table goes on enumerating** what is asked for. -/
theorem Enumerates.answer (enumerates : t.Enumerates operands) (rs : List Request) :
    (answer rs t).2.Enumerates (operands.append (requested rs)) := by
  rw [answer_snd]
  exact enumerates.extend _

/-- **The tokens handed out** are those of the rows that the table has for them at the end. -/
theorem answer_fst_eq_map (rs : List Request) (t : TokenTable) :
    (answer rs t).1 = rs.map fun r => Token.ofRow r.table (r.row (answer rs t).2) := by
  rw [answer_fst]
  refine List.map_congr_left fun r mem => ?_
  have listed : r.Listed (answer rs t).2 := by
    rw [answer_snd, listed_extend]
    exact .inr (listed_requested.mpr mem)
  rw [Request.ask_of_listed listed]

end TokenTable

end Hotpatch
