import Hotpatch.Metadata.TokenTable
import Mathlib.Data.List.Dedup
import Mathlib.Data.List.Infix

/-! # Interning

What is asked of a token table while code is written, and what its tokens stand for afterwards.

* **`Token.rowIn?_ofRow`** — a token leads back to its row, if that is written in 24 bits.
* **`internAll`** — values interned one by one, each of them listed once, in order.
* **`TokenTable.Grows`**, **`TokenTable.Small`** — a table that got more rows, and one whose rows can
  all be named.
* **`TokenTable.extend`** — a table after the operands of some code were interned.
* **`TokenTable.interned_eq`** — a table of given rows, interned kind by kind.
* **`TokenTable.lookup_intern`** — the token of a value stands for it in every table grown later. -/

namespace Hotpatch

/-! ## (1) Tokens and rows -/

namespace Token

/-- The word of a token has its row, counted from one, in the low 24 bits. -/
theorem toNat_word_ofRow (table : UInt8) {row : Nat} (small : row + 1 < 16777216) :
    (ofRow table row).word.toNat = table.toNat * 16777216 + (row + 1) := by
  have tableBound := table.toNat_lt
  have low : (UInt32.ofNat row + 1).toNat = row + 1 := by
    rw [UInt32.toNat_add, UInt32.toNat_ofNat', UInt32.toNat_one]
    omega
  have high : (table.toUInt32 <<< 24).toNat = table.toNat <<< 24 := by
    rw [UInt32.toNat_shiftLeft, UInt8.toNat_toUInt32]
    show table.toNat <<< 24 % 4294967296 = table.toNat <<< 24
    rw [Nat.shiftLeft_eq]
    omega
  show (table.toUInt32 <<< 24 ||| (UInt32.ofNat row + 1)).toNat = _
  rw [UInt32.toNat_or, low, high, ← Nat.shiftLeft_add_eq_or_of_lt (by omega), Nat.shiftLeft_eq]

/-- The row that is masked out of a word. -/
@[simp] theorem toNat_mask (word : UInt32) : (word &&& 0x00ffffff).toNat = word.toNat % 16777216 := by
  rw [UInt32.toNat_and]
  exact Nat.and_two_pow_sub_one_eq_mod _ 24

/-- **A token leads back to its row**, if the row fits into 24 bits. -/
@[simp] theorem rowIn?_ofRow {table : UInt8} {row : Nat} (small : row + 1 < 16777216) :
    (ofRow table row).rowIn? table = some row := by
  have tableBound := table.toNat_lt
  have word := toNat_word_ofRow table small
  -- The table is in the high byte, which the row does not reach.
  have isTable : (ofRow table row).table = table := by
    apply UInt8.toNat_inj.mp
    show ((ofRow table row).word >>> 24).toUInt8.toNat = table.toNat
    rw [UInt32.toNat_toUInt8, UInt32.toNat_shiftRight, word]
    show (table.toNat * 16777216 + (row + 1)) >>> 24 % 256 = table.toNat
    rw [Nat.shiftRight_eq_div_pow]
    omega
  have mask : ((ofRow table row).word &&& 0x00ffffff).toNat = row + 1 := by
    rw [toNat_mask, word]
    omega
  have isRow : (ofRow table row).word &&& 0x00ffffff ≠ 0 := by
    intro zero
    rw [zero] at mask
    cases mask
  rw [rowIn?, if_pos ⟨isTable, isRow⟩, mask, Nat.add_sub_cancel]

/-- A row that a token names fits into 24 bits. -/
theorem lt_of_rowIn? {t : Token} {table : UInt8} {row : Nat} (names : t.rowIn? table = some row) :
    row + 1 < 16777216 := by
  rw [rowIn?] at names
  split at names
  · next found =>
    have positive : (t.word &&& 0x00ffffff).toNat ≠ 0 := fun zero =>
      found.2 (UInt32.toNat_inj.mp zero)
    have bound := toNat_mask t.word
    have row := Option.some.inj names
    omega
  · cases names

end Token

/-! ## (2) Rows -/

namespace TokenTable

variable {α : Type}

/-- A token that is looked up stands for a row that can be named. -/
theorem exists_row_of_lookup {table : UInt8} {rows : List α} {token : Token} {value : α}
    (found : lookup table rows token = .ok value) :
    ∃ row, row + 1 < 16777216 ∧ rows[row]? = some value := by
  rw [lookup] at found
  split at found
  · next value' here =>
    obtain rfl := Except.ok.inj found
    obtain ⟨row, names, value⟩ := Option.bind_eq_some_iff.mp here
    exact ⟨row, Token.lt_of_rowIn? names, value⟩
  · cases found

variable [DecidableEq α]

/-- Interning keeps the rows there are, and the row it gives holds the value. -/
theorem intern_spec (rows : List α) (value : α) :
    rows <+: (intern rows value).2
      ∧ (intern rows value).2[(intern rows value).1]? = some value := by
  rw [intern]
  split
  · next row found =>
    obtain ⟨bound, here, -⟩ := List.idxOf?_eq_some_iff.mp found
    exact ⟨List.prefix_rfl, List.getElem?_eq_some_iff.mpr ⟨bound, here⟩⟩
  · exact ⟨List.prefix_append _ _, List.getElem?_concat_length⟩

/-- **The token of an interned value stands for it** in all rows that are added to later, as long as
the rows can be named. -/
theorem lookup_intern (table : UInt8) {rows final : List α} {value : α}
    (grown : (intern rows value).2 <+: final) (small : final.length < 16777216) :
    lookup table final (Token.ofRow table (intern rows value).1) = .ok value := by
  obtain ⟨-, here⟩ := intern_spec rows value
  obtain ⟨bound, same⟩ := List.getElem?_eq_some_iff.mp here
  -- Rows that are added later do not move the row of the value.
  have later : final[(intern rows value).1]? = some value := by
    rw [List.prefix_iff_getElem?.mp grown _ bound, same]
  have named : (intern rows value).1 + 1 < 16777216 := by
    have := grown.length_le
    omega
  rw [lookup, Token.rowIn?_ofRow named, Option.bind_some, later]

/-- **Intern all** of some values, one after the other. -/
def internAll (rows values : List α) : List α :=
  values.foldl (fun rows value => (intern rows value).2) rows

/-- Interning two lists of values after one another is interning them side by side. -/
@[simp] theorem internAll_append (rows values more : List α) :
    internAll rows (values ++ more) = internAll (internAll rows values) more :=
  List.foldl_append

/-- Rows that are there stay where they are. -/
@[simp] theorem prefix_internAll (rows values : List α) : rows <+: internAll rows values := by
  induction values generalizing rows with
  | nil => exact List.prefix_rfl
  | cons value values ih => exact (intern_spec rows value).1.trans (ih _)

/-- Rows hold what they held, and the values interned. -/
@[simp, grind =] theorem mem_internAll {rows values : List α} {value : α} :
    value ∈ internAll rows values ↔ value ∈ rows ∨ value ∈ values := by
  have mem_intern (rows : List α) (added : α) :
      value ∈ (intern rows added).2 ↔ value ∈ rows ∨ value = added := by
    rw [intern]
    split
    · next row found =>
      obtain ⟨bound, here, -⟩ := List.idxOf?_eq_some_iff.mp found
      exact ⟨.inl, fun mem => mem.elim id fun same => same ▸ here ▸ List.getElem_mem bound⟩
    · rw [List.mem_append, List.mem_singleton]
  induction values generalizing rows with
  | nil => simp [internAll]
  | cons added values ih =>
    have later : value ∈ internAll (intern rows added).2 values
        ↔ value ∈ (intern rows added).2 ∨ value ∈ values := ih
    refine later.trans ?_
    rw [mem_intern, List.mem_cons, or_assoc]

/-- No value is listed twice. -/
theorem nodup_internAll {rows : List α} (nodup : rows.Nodup) (values : List α) :
    (internAll rows values).Nodup := by
  induction values generalizing rows with
  | nil => exact nodup
  | cons value values ih =>
    refine ih ?_
    show (intern rows value).2.Nodup
    rw [intern]
    split
    · exact nodup
    · next absent =>
      rw [List.idxOf?_eq_none_iff] at absent
      exact nodup.append (List.nodup_singleton value) (List.disjoint_singleton.mpr absent)

/-- **As many rows as different values** come out of interning into an empty list. -/
theorem length_internAll_nil (values : List α) :
    (internAll [] values).length = values.dedup.length := by
  -- Both lists have the same members and none of them twice.
  refine ((List.perm_ext_iff_of_nodup (nodup_internAll List.nodup_nil values)
    (List.nodup_dedup values)).mpr fun value => ?_).length_eq
  rw [mem_internAll, List.mem_dedup]
  exact ⟨fun mem => mem.resolve_left List.not_mem_nil, .inr⟩

/-! ## (3) Tables -/

/-- A table **grows** into one that has its rows in front. -/
structure Grows (t u : TokenTable) : Prop where
  strings : t.strings <+: u.strings
  types : t.types <+: u.types
  methods : t.methods <+: u.methods

/-- A **small** table: all its rows can be named by tokens. -/
structure Small (t : TokenTable) : Prop where
  strings : t.strings.length < 16777216
  types : t.types.length < 16777216
  methods : t.methods.length < 16777216

variable {t u v : TokenTable}

/-- Every table grows into itself. -/
@[refl] theorem Grows.refl (t : TokenTable) : t.Grows t :=
  ⟨List.prefix_rfl, List.prefix_rfl, List.prefix_rfl⟩

/-- What grows into a table grows into all that table grows into. -/
@[trans] theorem Grows.trans (first : t.Grows u) (second : u.Grows v) : t.Grows v :=
  ⟨first.strings.trans second.strings, first.types.trans second.types,
    first.methods.trans second.methods⟩

/-- **Extend** a table by the operands of some code, interned one by one. -/
def extend (t operands : TokenTable) : TokenTable :=
  ⟨internAll t.strings operands.strings, internAll t.types operands.types,
    internAll t.methods operands.methods⟩

/-- The rows of two tables **side by side**. -/
def append (t u : TokenTable) : TokenTable :=
  ⟨t.strings ++ u.strings, t.types ++ u.types, t.methods ++ u.methods⟩

/-- Operands are interned one after the other. -/
@[simp] theorem extend_append (t operands more : TokenTable) :
    t.extend (operands.append more) = (t.extend operands).extend more := by
  simp only [extend, append, internAll_append]

/-- A table grows when operands are interned. -/
@[simp] theorem grows_extend (t operands : TokenTable) : t.Grows (t.extend operands) :=
  ⟨prefix_internAll _ _, prefix_internAll _ _, prefix_internAll _ _⟩

/-- **A table with its values interned** is the empty one, extended by them. -/
theorem interned_eq (t : TokenTable) : t.interned = empty.extend t := by
  have strings (u : TokenTable) : t.strings.foldl (fun grown text => (grown.internString text).2) u
      = { u with strings := internAll u.strings t.strings } :=
    List.foldl_hom (fun rows => { u with strings := rows }) fun _ _ => rfl
  have types (u : TokenTable) : t.types.foldl (fun grown type => (grown.internType type).2) u
      = { u with types := internAll u.types t.types } :=
    List.foldl_hom (fun rows => { u with types := rows }) fun _ _ => rfl
  have methods (u : TokenTable) : t.methods.foldl (fun grown method => (grown.internMethod method).2) u
      = { u with methods := internAll u.methods t.methods } :=
    List.foldl_hom (fun rows => { u with methods := rows }) fun _ _ => rfl
  rw [interned, strings, types, methods]
  rfl

/-- **Few different operands** make a small table. -/
theorem small_extend_empty {operands : TokenTable}
    (strings : operands.strings.dedup.length < 16777216)
    (types : operands.types.dedup.length < 16777216)
    (methods : operands.methods.dedup.length < 16777216) : (empty.extend operands).Small :=
  ⟨(length_internAll_nil operands.strings).trans_lt strings,
    (length_internAll_nil operands.types).trans_lt types,
    (length_internAll_nil operands.methods).trans_lt methods⟩

end TokenTable

end Hotpatch
