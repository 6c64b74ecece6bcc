/-! # Tokens

A token stands for a string, a type or a method in an instruction operand. Its high byte names a
table and its low three bytes are a row of that table, counted from one.

* **`Token.ofRow`** — the token of a row.
* **`Token.rowIn?`** — the row a token names in a given table. -/

namespace Hotpatch

/-- A **token**, as the word written into code. -/
structure Token where
  word : UInt32
deriving Repr, DecidableEq, Inhabited

namespace Token

/-- The table of the strings loaded by code. -/
def strings : UInt8 := 0x70

/-- The table of the types used by code. -/
def types : UInt8 := 0x1b

/-- The table of the methods called by code. -/
def methods : UInt8 := 0x0a

/-- **Token of a row**, counted from zero, in a table. The row takes the low bits of the word. -/
def ofRow (table : UInt8) (row : Nat) : Token :=
  ⟨table.toUInt32 <<< 24 ||| (UInt32.ofNat row + 1)⟩

/-- **Table** a token belongs to. -/
def table (t : Token) : UInt8 :=
  (t.word >>> 24).toUInt8

/-- **Row** of a token, counted from zero, if it belongs to the table. Row zero of the written form
names nothing. -/
def rowIn? (t : Token) (table : UInt8) : Option Nat :=
  let row := t.word &&& 0x00ffffff
  if t.table = table ∧ row ≠ 0 then some (row.toNat - 1) else none

end Token

end Hotpatch
