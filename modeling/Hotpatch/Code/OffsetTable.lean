import Hotpatch.Text.Digits

/-! # Offset tables

Entries one behind the other, each as wide as the bytes it takes, found again by the offset at
which they start.

* **`OffsetTable.push`** — a new entry behind the others, at the total of their widths.
* **`OffsetTable.lookup`** — the entry that starts at an offset, by binary search.

The starts never decrease, so the last entry that starts at or before an offset tells what lies
there. -/

namespace Hotpatch

/-- **Distance** of an offset from another, both of them words of 64 bits, as a signed word. -/
def offsetDistance (offset base : Nat) : Int :=
  (offset - base : Int).bmod 18446744073709551616

/-- An **offset table**: entries with the offsets at which they start. -/
structure OffsetTable (α : Type) where
  entries : Array (Nat × α)
  /-- Where the next entry will start: the total of the widths so far. -/
  total : Nat
deriving Repr, DecidableEq, Inhabited

/-- What an offset **finds** in a table. -/
inductive OffsetLookup (α : Type) where
  /-- The entry that starts there. -/
  | found (index : Nat) (value : α)
  /-- No entry starts there; the next one to start does so at this index. -/
  | inside (next : Nat)
  /-- No entry starts there or later. -/
  | beyond
deriving Repr, DecidableEq, Inhabited

/-- **Index** of the entry found. -/
def OffsetLookup.index? : OffsetLookup α → Option Nat
  | found index _ => some index
  | inside _ | beyond => none

namespace OffsetTable

/-- The **empty** table. -/
def empty : OffsetTable α := ⟨#[], 0⟩

/-- **Push** an entry of a width. It starts where the entries before it end. -/
def push (t : OffsetTable α) (width : Nat) (value : α) : OffsetTable α :=
  ⟨t.entries.push (t.total, value), t.total + width⟩

/-- **Table of a list** of widths and values. -/
def ofList (items : List (Nat × α)) : OffsetTable α :=
  items.foldl (fun t item => t.push item.1 item.2) empty

/-- **Start** of an entry; zero for an index past the end. -/
def start (t : OffsetTable α) (index : Nat) : Nat :=
  (t.entries[index]?.map (·.1)).getD 0

/-- **Narrow** the search: of `count` entries from `base` on, the last one that starts at or before
the offset, or `base` if none of them does. -/
def narrow (t : OffsetTable α) (offset base count : Nat) : Nat :=
  if count ≤ 1 then base
  else
    let half := count / 2
    if offset < t.start (base + half) then t.narrow offset base (count - half)
    else t.narrow offset (base + half) (count - half)
termination_by count

/-- **Look up** an offset. -/
def lookup (t : OffsetTable α) (offset : Nat) : OffsetLookup α :=
  let index := t.narrow offset 0 t.entries.size
  match t.entries[index]? with
  | none => .beyond
  | some (start, value) =>
    if start = offset then .found index value
    else
      let next := if start < offset then index + 1 else index
      if next = t.entries.size then .beyond else .inside next

/-- **Rendered** table: every entry behind its start. -/
def render (value : α → String) (t : OffsetTable α) : String :=
  Text.list (t.entries.toList.map fun entry => Text.offset entry.1 ++ " = " ++ value entry.2)

end OffsetTable

end Hotpatch
