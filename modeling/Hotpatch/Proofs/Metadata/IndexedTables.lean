import Hotpatch.Proofs.Metadata.Occurrences

/-! # Indexed tables

A token table that is grown with an index. Beside each list of rows, a map finds the token of a value, so
that the list is never searched. It hands out the same tokens as a table without an index, and lists the same
rows.

* **`IndexedRows`** — rows, and the map of their tokens; `IndexedRows.request` asks the map first.
* **`IndexedRows.InStep`** — the map has the tokens of the rows and no others; every request keeps it so.
* **`IndexedTable.answer_eq`** — a list of requests is answered as by `TokenTable.answer`. -/

namespace Hotpatch

open TokenTable (intern idxOf?_concat Request)

/-! ## (1) Rows -/

/-- **Indexed rows**: some values, and a map from values to tokens. -/
structure IndexedRows (α : Type) [BEq α] [Hashable α] where
  rows : List α
  tokens : Std.HashMap α Token

namespace IndexedRows

variable {α : Type} [DecidableEq α] [Hashable α]

/-- **No rows**, and nothing in the map. -/
def empty : IndexedRows α := ⟨[], ∅⟩

/-- **Request** the token of a value. If the map has none, a new row is added, and its token put into the
map. -/
def request (table : UInt8) (value : α) (t : IndexedRows α) : Token × IndexedRows α :=
  match t.tokens[value]? with
  | some token => (token, t)
  | none =>
    let token := Token.ofRow table t.rows.length
    (token, ⟨t.rows ++ [value], t.tokens.insert value token⟩)

/-- **Request** a token after the map was asked for it once before. -/
def requestAgain (table : UInt8) (value : α) (t : IndexedRows α) : Token × IndexedRows α :=
  match t.tokens[value]? with
  | some token => (token, t)
  | none => t.request table value

/-- To ask the map before makes no difference. -/
@[simp] theorem requestAgain_eq (table : UInt8) (value : α) (t : IndexedRows α) :
    t.requestAgain table value = t.request table value := by
  rw [requestAgain]
  split
  · next token found => rw [request, found]
  · rfl

/-- A map is **in step** with the rows: it has for each value the token of its first row. -/
def InStep (table : UInt8) (t : IndexedRows α) : Prop :=
  ∀ value, t.tokens[value]? = (t.rows.idxOf? value).map (Token.ofRow table)

/-- Without rows there is nothing in the map. -/
@[simp] theorem inStep_empty (table : UInt8) : (empty : IndexedRows α).InStep table :=
  fun _ => Std.HashMap.getElem?_empty

variable {table : UInt8} {t : IndexedRows α}

/-- **A request** to rows that are in step with their map interns the value, and they stay in step. -/
theorem InStep.request (inStep : t.InStep table) (value : α) :
    (t.request table value).1 = Token.ofRow table (intern t.rows value).1
      ∧ (t.request table value).2.rows = (intern t.rows value).2
      ∧ (t.request table value).2.InStep table := by
  have known := inStep value
  cases found : t.rows.idxOf? value with
  | some row =>
    rw [found, Option.map_some] at known
    rw [IndexedRows.request, known, intern, found]
    exact ⟨rfl, rfl, inStep⟩
  | none =>
    rw [found, Option.map_none] at known
    rw [IndexedRows.request, known, intern, found]
    refine ⟨rfl, rfl, fun other => ?_⟩
    show (t.tokens.insert value (Token.ofRow table t.rows.length))[other]? = _
    -- Rows and map both grow by this value alone, as it is not among the rows.
    rw [Std.HashMap.getElem?_insert, idxOf?_concat (List.idxOf?_eq_none_iff.mp found)]
    by_cases same : value = other
    · simp [same]
    · simp [same, inStep other]

end IndexedRows

/-! ## (2) Tables -/

variable [Hashable TypeSig] [Hashable MethodRef]

/-- An **indexed table**, whatever its values are hashed to. -/
structure IndexedTable where
  strings : IndexedRows String
  types : IndexedRows TypeSig
  methods : IndexedRows MethodRef

namespace IndexedTable

/-- The **empty** table. -/
def empty : IndexedTable := ⟨.empty, .empty, .empty⟩

/-- The table **without** the index. -/
def table (t : IndexedTable) : TokenTable :=
  ⟨t.strings.rows, t.types.rows, t.methods.rows⟩

/-- **Ask** for a token. The map of the strings is asked twice. -/
def ask (t : IndexedTable) : Request → Token × IndexedTable
  | .string text =>
    let (token, strings) := t.strings.requestAgain Token.strings text
    (token, { t with strings })
  | .type sig =>
    let (token, types) := t.types.request Token.types sig
    (token, { t with types })
  | .method ref =>
    let (token, methods) := t.methods.request Token.methods ref
    (token, { t with methods })

/-- **Answer** requests, one after the other. -/
def answer : List Request → IndexedTable → List Token × IndexedTable
  | [], t => ([], t)
  | r :: rest, t =>
    let (token, t) := t.ask r
    let (tokens, t) := answer rest t
    (token :: tokens, t)

/-- All maps are **in step** with their rows. -/
structure InStep (t : IndexedTable) : Prop where
  strings : t.strings.InStep Token.strings
  types : t.types.InStep Token.types
  methods : t.methods.InStep Token.methods

/-- The empty table is in step. -/
@[simp] theorem inStep_empty : empty.InStep :=
  ⟨IndexedRows.inStep_empty _, IndexedRows.inStep_empty _, IndexedRows.inStep_empty _⟩

variable {t : IndexedTable}

/-- **One request** is answered as without the index, and keeps the maps in step. -/
theorem InStep.ask (inStep : t.InStep) (r : Request) :
    (t.ask r).1 = (r.ask t.table).1 ∧ (t.ask r).2.table = (r.ask t.table).2 ∧ (t.ask r).2.InStep := by
  cases r with
  | string text =>
    obtain ⟨token, rows, kept⟩ := inStep.strings.request text
    simp only [IndexedTable.ask, IndexedRows.requestAgain_eq]
    exact ⟨token, congrArg (fun strings => { t.table with strings }) rows, kept, inStep.types, inStep.methods⟩
  | type sig =>
    obtain ⟨token, rows, kept⟩ := inStep.types.request sig
    exact ⟨token, congrArg (fun types => { t.table with types }) rows, inStep.strings, kept, inStep.methods⟩
  | method ref =>
    obtain ⟨token, rows, kept⟩ := inStep.methods.request ref
    exact ⟨token, congrArg (fun methods => { t.table with methods }) rows, inStep.strings, inStep.types, kept⟩

/-- **Requests are answered** as without the index. -/
theorem answer_eq (inStep : t.InStep) (rs : List Request) :
    (answer rs t).1 = (TokenTable.answer rs t.table).1
      ∧ (answer rs t).2.table = (TokenTable.answer rs t.table).2 ∧ (answer rs t).2.InStep := by
  induction rs generalizing t with
  | nil => exact ⟨rfl, rfl, inStep⟩
  | cons r rest ih =>
    obtain ⟨token, table, kept⟩ := inStep.ask r
    have others := ih kept
    rw [table] at others
    exact ⟨congr (congrArg List.cons token) others.1, others.2⟩

end IndexedTable

end Hotpatch
