import Hotpatch.Proofs.Code.OffsetLookup
import Mathlib.Data.Set.Subsingleton

/-! # Look-ups and scans

The binary search of an offset finds what going through all entries would find.

* **`OffsetTable.scan`** — the entries gone through from the first one on.
* **`answers_scan`**, **`lookup_eq_scan`** — in an increasing table it answers to an offset, as a look-up does.
* **`lookup_ofList`** — what is found in a table whose entries were pushed one behind the other. -/

namespace Hotpatch.OffsetTable

variable {α : Type} {t : OffsetTable α} {offset : Nat}

/-! ## (1) Scans -/

/-- **Scan** entries, the first of which has the given index, for one that starts at an offset or behind it. -/
def scanFrom (offset : Nat) : Nat → List (Nat × α) → OffsetLookup α
  | _, [] => .beyond
  | index, (start, value) :: rest =>
    if start = offset then .found index value
    else if offset < start then .inside index
    else scanFrom offset (index + 1) rest

/-- **Scan** a table for an offset. -/
def scan (t : OffsetTable α) (offset : Nat) : OffsetLookup α :=
  scanFrom offset 0 t.entries.toList

/-- What is scanned behind entries that all start before the offset is an answer. -/
theorem Increasing.answers_scanFrom (increasing : t.Increasing) {front rest : List (Nat × α)}
    (whole : t.entries.toList = front ++ rest) (before : ∀ i < front.length, t.start i < offset) :
    t.Answers offset (scanFrom offset front.length rest) := by
  -- The scan goes on with one more entry in front that starts before the offset.
  induction rest generalizing front with
  | nil =>
    have size : t.entries.size = front.length := by
      rw [← Array.length_toList, whole, List.append_nil]
    rw [scanFrom]
    exact fun i inside => before i (size ▸ inside)
  | cons entry rest ih =>
    obtain ⟨start, value⟩ := entry
    have here : t.entries[front.length]? = some (start, value) := by
      rw [← Array.getElem?_toList, whole, List.getElem?_append_right (Nat.le_refl _), Nat.sub_self,
        List.getElem?_cons_zero]
    obtain ⟨bound, starts⟩ := start_of_getElem? here
    rw [scanFrom]
    by_cases same : start = offset
    · rw [if_pos same]
      exact same ▸ here
    · rw [if_neg same]
      by_cases late : offset < start
      · rw [if_pos late]
        exact increasing.answers_inside bound (starts.symm ▸ late) before
      · rw [if_neg late]
        have longer : (front ++ [(start, value)]).length = front.length + 1 := List.length_append
        rw [← longer]
        refine ih (by rw [whole, List.append_assoc, List.singleton_append]) fun i inside => ?_
        rcases Nat.lt_succ_iff_lt_or_eq.mp (longer ▸ inside) with earlier | rfl
        · exact before i earlier
        · omega

/-- **A scan answers** if later entries start later. -/
theorem answers_scan (increasing : t.Increasing) (offset : Nat) : t.Answers offset (t.scan offset) :=
  increasing.answers_scanFrom (List.nil_append _).symm fun i early => absurd early (Nat.not_lt_zero i)

/-- **A look-up agrees with a scan** if later entries start later. -/
theorem lookup_eq_scan (increasing : t.Increasing) (offset : Nat) : t.lookup offset = t.scan offset :=
  (lookup_eq_iff increasing).mpr (answers_scan increasing offset)

/-! ## (2) Pushed entries -/

section Pushed

variable {items : List (Nat × α)}

/-- The starts that meet a condition are those of the items that do. -/
theorem forall_start_ofList {P : Nat → Prop} :
    (∀ i < (ofList items).entries.size, P ((ofList items).start i))
      ↔ ∀ i < items.length, P (startOf (items.map (·.1)) i) := by
  rw [size_ofList]
  exact forall₂_congr fun i inside => by rw [start_ofList inside]

/-- The entries that start behind an offset are the items that do. -/
theorem setOf_lt_start_ofList (items : List (Nat × α)) (offset : Nat) :
    {i | i < (ofList items).entries.size ∧ offset < (ofList items).start i}
      = {i | i < items.length ∧ offset < startOf (items.map (·.1)) i} := by
  ext i
  rw [Set.mem_ofPred_eq, Set.mem_ofPred_eq, size_ofList]
  exact and_congr_right fun inside => by rw [start_ofList inside]

/-- No two items that take up room start at one offset. -/
theorem subsingleton_startOf (positive : ∀ item ∈ items, 0 < item.1) (offset : Nat) :
    {i | i < items.length ∧ startOf (items.map (·.1)) i = offset}.Subsingleton := by
  rintro i ⟨inside, here⟩ j ⟨inside', there⟩
  rw [← start_ofList inside] at here
  rw [← start_ofList inside'] at there
  rw [← size_ofList] at inside inside'
  exact (increasing_ofList positive).start_inj inside inside' (here.trans there.symm)

/-- **The items all start before an offset** if the last one does. -/
theorem forall_startOf_lt_iff (items : List (Nat × α)) (offset : Nat) :
    (∀ i < items.length, startOf (items.map (·.1)) i < offset)
      ↔ items = [] ∨ startOf (items.map (·.1)) (items.length - 1) < offset := by
  constructor
  · intro all
    rcases Nat.eq_zero_or_pos items.length with empty | some_items
    · exact .inl (List.length_eq_zero_iff.mp empty)
    · exact .inr (all _ (by omega))
  · rintro (rfl | last) i inside
    · exact absurd inside (Nat.not_lt_zero i)
    · exact Nat.lt_of_le_of_lt (startOf_mono (by omega)) last

/-- **The item in front** of the first one that starts behind an offset reaches over it, unless one starts there. -/
theorem exists_around (apart : ∀ i < items.length, startOf (items.map (·.1)) i ≠ offset) {next : Nat}
    (least : IsLeast {i | i < items.length ∧ offset < startOf (items.map (·.1)) i} next) :
    ∃ i width value, next = i + 1 ∧ items[i]? = some (width, value)
      ∧ startOf (items.map (·.1)) i < offset ∧ offset < startOf (items.map (·.1)) i + width := by
  obtain ⟨⟨bound, behind⟩, lower⟩ := least
  cases next with
  | zero =>
    -- The first item starts at zero.
    rw [startOf_zero] at behind
    exact absurd behind (Nat.not_lt_zero offset)
  | succ i =>
    have inside : i < items.length := by omega
    have here : (items.map (·.1))[i]? = some items[i].1 := by
      rw [List.getElem?_map, List.getElem?_eq_getElem inside, Option.map_some]
    refine ⟨i, items[i].1, items[i].2, rfl, List.getElem?_eq_getElem inside, ?_, startOf_succ here ▸ behind⟩
    have notBehind : ¬ offset < startOf (items.map (·.1)) i := fun late =>
      absurd (lower ⟨inside, late⟩) (Nat.not_succ_le_self i)
    have notThere := apart i inside
    omega

/-- **What is looked up** in a table of items that take up room, pushed one behind the other: each starts where the
widths of those before it end, and the total is that of all widths. A look-up finds what a scan does. It finds an
item, the only one, if this starts at the offset; it finds nothing if there is no item or the last one starts before
the offset; else it finds the first item that starts behind the offset, which lies strictly inside the one before. -/
theorem lookup_ofList (positive : ∀ item ∈ items, 0 < item.1) (offset : Nat) :
    (∀ i, (ofList items).entries[i]?
        = items[i]?.map fun item => (startOf (items.map (·.1)) i, item.2))
    ∧ (ofList items).total = (items.map (·.1)).sum
    ∧ (ofList items).lookup offset = (ofList items).scan offset
    ∧ (∀ i value, (ofList items).lookup offset = .found i value
        ↔ (∃ width, items[i]? = some (width, value)) ∧ startOf (items.map (·.1)) i = offset)
    ∧ {i | i < items.length ∧ startOf (items.map (·.1)) i = offset}.Subsingleton
    ∧ ((ofList items).lookup offset = .beyond
        ↔ items = [] ∨ startOf (items.map (·.1)) (items.length - 1) < offset)
    ∧ ∀ next, (ofList items).lookup offset = .inside next
        ↔ (∀ i < items.length, startOf (items.map (·.1)) i ≠ offset)
          ∧ IsLeast {i | i < items.length ∧ offset < startOf (items.map (·.1)) i} next
          ∧ ∃ i width value, next = i + 1 ∧ items[i]? = some (width, value)
            ∧ startOf (items.map (·.1)) i < offset ∧ offset < startOf (items.map (·.1)) i + width := by
  have increasing := increasing_ofList positive
  refine ⟨getElem?_ofList items, total_ofList items, lookup_eq_scan increasing offset, fun i value => ?_,
    subsingleton_startOf positive offset, ?_, fun next => ?_⟩
  · rw [lookup_eq_iff increasing, Answers, getElem?_ofList, Option.map_eq_some_iff]
    constructor
    · rintro ⟨⟨width, _⟩, here, same⟩
      obtain ⟨starts, rfl⟩ := Prod.mk.inj same
      exact ⟨⟨width, here⟩, starts⟩
    · rintro ⟨⟨width, here⟩, starts⟩
      exact ⟨_, here, Prod.ext starts rfl⟩
  · rw [lookup_eq_iff increasing, Answers, forall_start_ofList (P := (· < offset)),
      forall_startOf_lt_iff]
  · rw [lookup_eq_iff increasing, Answers, forall_start_ofList (P := (· ≠ offset)),
      setOf_lt_start_ofList]
    exact ⟨fun ⟨apart, least⟩ => ⟨apart, least, exists_around apart least⟩,
      fun ⟨apart, least, _⟩ => ⟨apart, least⟩⟩

/-- Three items of two, five and three bytes. -/
def trio : List (Nat × String) := [(2, "a"), (5, "b"), (3, "c")]

/-- The last one is found at its start, and nothing is behind that. An offset in the middle of the second one is
in front of the third. -/
theorem lookup_ofList_trio : (∀ item ∈ trio, 0 < item.1) ∧ (ofList trio).total = 10
    ∧ (ofList trio).lookup 7 = .found 2 "c" ∧ (ofList trio).lookup 8 = .beyond
    ∧ (ofList trio).lookup 4 = .inside 2 ∧ (ofList trio).lookup 4 = (ofList trio).scan 4 := by
  have positive : ∀ item ∈ trio, 0 < item.1 := by decide
  obtain ⟨-, total, -, found, -⟩ := lookup_ofList positive 7
  obtain ⟨-, -, -, -, -, beyond, -⟩ := lookup_ofList positive 8
  obtain ⟨-, -, scan, -, -, -, inside⟩ := lookup_ofList positive 4
  refine ⟨positive, total, (found 2 "c").mpr ⟨⟨3, rfl⟩, rfl⟩, beyond.mpr (.inr (by decide)), ?_, scan⟩
  refine (inside 2).mpr ⟨by decide, ⟨by decide, fun i ⟨_, late⟩ => ?_⟩, 1, 5, "b", rfl, rfl, by decide, by decide⟩
  -- The two items in front start too early.
  by_contra early
  match i with
  | 0 | 1 => exact absurd late (by decide)
  | i + 2 => omega

end Pushed

end Hotpatch.OffsetTable
