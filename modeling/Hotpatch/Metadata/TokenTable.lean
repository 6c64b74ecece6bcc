import Hotpatch.Metadata.MethodRef
import Hotpatch.Metadata.Token

/-! # Token tables

The strings, types and methods that code refers to by tokens.

* **`TokenTable`** — three lists; a look-up gives the row a token names, or `badToken`.
* **`TokenTable.internString`**, **`internType`**, **`internMethod`** — the token of a value, which
  is added behind the others the first time it is asked for.

A table that only grew by interning lists each value once, in the order of the first requests. -/

namespace Hotpatch

/-- A **token table**. -/
structure TokenTable where
  strings : List String
  types : List TypeSig
  methods : List MethodRef
deriving Repr, DecidableEq, Inhabited

instance : Binary Token where
  write t := Binary.write t.word
  read := return ⟨← Binary.read⟩

instance : Binary TokenTable where
  write t := Binary.write t.strings ++ Binary.write t.types ++ Binary.write t.methods
  read := return ⟨← Binary.read, ← Binary.read, ← Binary.read⟩

namespace TokenTable

/-- The **empty** table. -/
def empty : TokenTable := ⟨[], [], []⟩

/-! ## (1) Looking up -/

/-- **Row** a token names in the list of a table. -/
def lookup (table : UInt8) (rows : List α) (token : Token) : Except Fault α :=
  match (token.rowIn? table).bind (rows[·]?) with
  | some value => .ok value
  | none => .error (.badToken token)

/-- The **string** a token stands for. -/
def string (t : TokenTable) (token : Token) : Except Fault String :=
  lookup Token.strings t.strings token

/-- The **type** a token stands for. -/
def type (t : TokenTable) (token : Token) : Except Fault TypeSig :=
  lookup Token.types t.types token

/-- The **method** a token stands for. -/
def method (t : TokenTable) (token : Token) : Except Fault MethodRef :=
  lookup Token.methods t.methods token

/-! ## (2) Interning -/

/-- **Intern** a value in a list: the row of its first occurrence, or a new row at the end. The list is
searched from the front; an `IndexedTable` finds the rows in a map instead, and gives the same tokens. -/
def intern [DecidableEq α] (rows : List α) (value : α) : Nat × List α :=
  match rows.idxOf? value with
  | some row => (row, rows)
  | none => (rows.length, rows ++ [value])

/-- **Token of a string**. -/
def internString (text : String) (t : TokenTable) : Token × TokenTable :=
  let (row, rows) := intern t.strings text
  (Token.ofRow Token.strings row, { t with strings := rows })

/-- **Token of a type**. -/
def internType (type : TypeSig) (t : TokenTable) : Token × TokenTable :=
  let (row, rows) := intern t.types type
  (Token.ofRow Token.types row, { t with types := rows })

/-- **Token of a method**. -/
def internMethod (method : MethodRef) (t : TokenTable) : Token × TokenTable :=
  let (row, rows) := intern t.methods method
  (Token.ofRow Token.methods row, { t with methods := rows })

/-- The table with its values **interned** one by one: each once, where it first occurs. A table whose rows
were given in any other way becomes one that only grew by interning; `interned_eq` says which one. -/
def interned (t : TokenTable) : TokenTable :=
  let strings := t.strings.foldl (fun grown text => (grown.internString text).2) empty
  let types := t.types.foldl (fun grown type => (grown.internType type).2) strings
  t.methods.foldl (fun grown method => (grown.internMethod method).2) types

end TokenTable

end Hotpatch
