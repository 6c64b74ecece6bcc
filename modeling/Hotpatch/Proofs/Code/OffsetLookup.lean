import Hotpatch.Code.OffsetTable
import Mathlib.Algebra.BigOperators.Group.List.Basic
import Mathlib.Algebra.GroupWithZero.Nat
import Mathlib.Data.List.Forall2
import Mathlib.Order.Bounds.Basic

/-! # Starts and look-ups

Where things of known widths start that are laid out one behind the other, and how a table of offsets
finds them again.

* **`startOf`** — where the thing at a position starts: behind all before it.
* **`startOf_sub_le`**, **`startOf_shrinksTo`** — with smaller widths no two things are further apart.
* **`OffsetTable.getElem?_ofList`** — the entries of a table start where their widths say.
* **`OffsetTable.narrow_spec`** — the binary search ends at the last entry that starts in time.
* **`offsetDistance_of_lt`** — how far two entries are apart.
* **`OffsetTable.Answers`**, **`lookup_eq_iff`** — what is to be answered to an offset, and a look-up is the one
  to answer it.
* **`OffsetTable.lookup_eq_found_iff`**, **`index?_lookup_eq_some_iff`** — an offset is found exactly if an
  entry starts there. -/

namespace Hotpatch

/-! ## (1) Starts -/

/-- The **start** of the thing at a position, all being laid out from zero on. -/
def startOf (widths : List Nat) (position : Nat) : Nat :=
  (widths.take position).sum

variable {widths sizes : List Nat} {i j : Nat}

/-- The first thing starts at zero. -/
@[simp] theorem startOf_zero (widths : List Nat) : startOf widths 0 = 0 := by
  rw [startOf, List.take_zero, List.sum_nil]

/-- Behind the first thing all others start later by its width. -/
@[simp, grind =] theorem startOf_cons_succ (width position : Nat) :
    startOf (width :: widths) (position + 1) = width + startOf widths position := by
  rw [startOf, List.take_succ_cons, List.sum_cons, startOf]

/-- The next thing starts where one ends. -/
theorem startOf_succ {width : Nat} (here : widths[i]? = some width) :
    startOf widths (i + 1) = startOf widths i + width := by
  rw [startOf, startOf, List.take_add_one, List.sum_append, here]
  rfl

/-- All things together end where the last one does. -/
@[simp] theorem startOf_length (widths : List Nat) : startOf widths widths.length = widths.sum := by
  rw [startOf, List.take_length]

/-- Later things start no earlier. -/
theorem startOf_mono (before : i ≤ j) : startOf widths i ≤ startOf widths j := by
  obtain ⟨further, rfl⟩ := Nat.exists_eq_add_of_le before
  rw [startOf, startOf, List.take_add, List.sum_append]
  exact Nat.le_add_right _ _

/-- Nothing starts behind the end. -/
@[simp] theorem startOf_le_sum (widths : List Nat) (position : Nat) :
    startOf widths position ≤ widths.sum := by
  rw [← List.sum_take_add_sum_drop widths position, startOf]
  exact Nat.le_add_right _ _

/-- Nothing is wider than all things together. -/
theorem le_sum_of_mem {width : Nat} (mem : width ∈ widths) : width ≤ widths.sum := by
  obtain ⟨position, here⟩ := List.mem_iff_getElem?.mp mem
  have stop := startOf_le_sum widths (position + 1)
  rw [startOf_succ here] at stop
  omega

/-- Of things that take up room, later ones start later. -/
theorem startOf_lt (positive : ∀ width ∈ widths, 0 < width) (before : i < j)
    (inside : i < widths.length) : startOf widths i < startOf widths j := by
  have next := startOf_succ (List.getElem?_eq_getElem inside)
  have room := positive _ (List.getElem_mem inside)
  have rest : startOf widths (i + 1) ≤ startOf widths j := startOf_mono before
  omega

/-- Things that take up room start at their position or behind it. -/
theorem length_le_sum (positive : ∀ width ∈ widths, 0 < width) : widths.length ≤ widths.sum := by
  induction widths with
  | nil => exact Nat.le_refl 0
  | cons width widths ih =>
    have first := positive width List.mem_cons_self
    have others := ih fun w mem => positive w (List.mem_cons_of_mem width mem)
    rw [List.length_cons, List.sum_cons]
    omega

/-- **With smaller widths nothing is further apart** than it was. -/
theorem startOf_sub_le (smaller : List.Forall₂ (· ≤ ·) widths sizes) (order : i ≤ j) :
    startOf widths j - startOf widths i ≤ startOf sizes j - startOf sizes i := by
  -- Both positions go down together, until the first one is at the front.
  induction smaller generalizing i j with
  | nil => simp [startOf]
  | @cons width size widths sizes first rest ih =>
    cases j with
    | zero => simp
    | succ j =>
      rw [startOf_cons_succ, startOf_cons_succ]
      cases i with
      | zero =>
        have behind := ih (Nat.zero_le j)
        rw [startOf_zero, startOf_zero] at behind ⊢
        omega
      | succ i =>
        have behind := ih (Nat.le_of_succ_le_succ order)
        rw [startOf_cons_succ, startOf_cons_succ]
        omega

/-- A distance **shrinks** to another one: it has the same direction and is no longer. -/
def ShrinksTo (before now : Int) : Prop :=
  now.natAbs ≤ before.natAbs ∧ (0 ≤ now ↔ 0 ≤ before)

/-- A distance that shrinks gets closer to zero. -/
theorem ShrinksTo.between {before now : Int} (shrinks : ShrinksTo before now) :
    0 ≤ now ∧ now ≤ before ∨ before ≤ now ∧ now ≤ 0 := by
  obtain ⟨less, direction⟩ := shrinks
  omega

/-- **With smaller widths all distances shrink**, and things that take up room stay apart. -/
theorem startOf_shrinksTo (smaller : List.Forall₂ (· ≤ ·) widths sizes)
    (positive : ∀ width ∈ widths, 0 < width) (inside : i ≤ widths.length) (j : Nat) :
    ShrinksTo (startOf sizes j - startOf sizes i) (startOf widths j - startOf widths i) := by
  unfold ShrinksTo
  rcases Nat.lt_or_ge j i with behind | ahead
  · -- Only a strict order keeps a negative distance from becoming zero.
    have less := startOf_sub_le smaller (Nat.le_of_lt behind)
    have order := startOf_lt positive behind (Nat.lt_of_lt_of_le behind inside)
    omega
  · have less := startOf_sub_le smaller ahead
    have order : startOf widths i ≤ startOf widths j := startOf_mono ahead
    have order' : startOf sizes i ≤ startOf sizes j := startOf_mono ahead
    omega

/-- **A slice of what is put together**: each part stands where the lengths of those in front of it say. -/
theorem take_drop_flatten {α : Type} {parts : List (List α)} {part : List α}
    (here : parts[i]? = some part) :
    (parts.flatten.drop (startOf (parts.map List.length) i)).take part.length = part := by
  obtain ⟨bound, rfl⟩ := List.getElem?_eq_some_iff.mp here
  rw [startOf, List.drop_sum_flatten, List.drop_eq_getElem_cons bound, List.flatten_cons, List.take_left]

/-- **The distance** of offsets that signed words hold is their difference. -/
theorem offsetDistance_of_lt {offset base : Nat} (offsetFits : offset < 9223372036854775808)
    (baseFits : base < 9223372036854775808) : offsetDistance offset base = offset - base :=
  Int.bmod_eq_of_le (by omega) (by omega)

/-! ## (2) Tables -/

namespace OffsetTable

variable {α : Type} {t : OffsetTable α} {offset : Nat}

/-- Items **laid out** from an offset on, each with its start. -/
def laidOut : Nat → List (Nat × α) → List (Nat × α)
  | _, [] => []
  | offset, (width, value) :: rest => (offset, value) :: laidOut (offset + width) rest

/-- All items are laid out. -/
@[simp] theorem length_laidOut (offset : Nat) (items : List (Nat × α)) :
    (laidOut offset items).length = items.length := by
  induction items generalizing offset with
  | nil => rfl
  | cons item items ih => rw [laidOut, List.length_cons, ih, List.length_cons]

/-- An attempt on all entries that does not depend on where they start. -/
theorem mapM_laidOut {β γ ε : Type} {f : Nat × α → Except ε β} {item : γ → Nat × α} {g : γ → β}
    {xs : List γ} (each : ∀ offset, ∀ x ∈ xs, f (offset, (item x).2) = .ok (g x)) (offset : Nat) :
    (laidOut offset (xs.map item)).mapM f = .ok (xs.map g) := by
  induction xs generalizing offset with
  | nil => rfl
  | cons x xs ih =>
    have others := ih (fun offset y mem => each offset y (List.mem_cons_of_mem x mem))
      (offset + (item x).1)
    rw [List.map_cons, laidOut, List.mapM_cons, each offset x List.mem_cons_self, others]
    rfl

/-- What is laid out at a position starts behind all before it. -/
@[simp, grind =] theorem getElem?_laidOut (offset : Nat) (items : List (Nat × α)) (position : Nat) :
    (laidOut offset items)[position]?
      = items[position]?.map fun item => (offset + startOf (items.map (·.1)) position, item.2) := by
  induction items generalizing offset position with
  | nil => rfl
  | cons item items ih =>
    cases position with
    | zero => rfl
    | succ position =>
      rw [laidOut, List.getElem?_cons_succ, List.getElem?_cons_succ, ih, List.map_cons,
        startOf_cons_succ, Nat.add_assoc]

/-- Pushing items goes on where a table ends. -/
theorem foldl_push (items : List (Nat × α)) (t : OffsetTable α) :
    items.foldl (fun t item => t.push item.1 item.2) t
      = ⟨t.entries ++ (laidOut t.total items).toArray, t.total + (items.map (·.1)).sum⟩ := by
  induction items generalizing t with
  | nil => simp [laidOut]
  | cons item items ih =>
    rw [List.foldl_cons, ih, push, laidOut, List.map_cons, List.sum_cons, Nat.add_assoc]
    simp

/-- The entries of a table made of a list. -/
@[simp] theorem toList_entries_ofList (items : List (Nat × α)) :
    (ofList items).entries.toList = laidOut 0 items := by
  rw [ofList, foldl_push]
  simp [empty]

/-- **A table of a list** has its items at their starts. -/
@[simp, grind =] theorem getElem?_ofList (items : List (Nat × α)) (position : Nat) :
    (ofList items).entries[position]?
      = items[position]?.map fun item => (startOf (items.map (·.1)) position, item.2) := by
  rw [← Array.getElem?_toList, toList_entries_ofList, getElem?_laidOut]
  simp only [Nat.zero_add]

/-- A table of a list has as many entries. -/
@[simp] theorem size_ofList (items : List (Nat × α)) : (ofList items).entries.size = items.length := by
  rw [← Array.length_toList, toList_entries_ofList, length_laidOut]

/-- The start of an entry is that of its item. -/
theorem start_ofList {items : List (Nat × α)} {position : Nat} (inside : position < items.length) :
    (ofList items).start position = startOf (items.map (·.1)) position := by
  rw [start, getElem?_ofList, List.getElem?_eq_getElem inside]
  rfl

/-- The total of a table is that of the widths. -/
@[simp] theorem total_ofList (items : List (Nat × α)) :
    (ofList items).total = (items.map (·.1)).sum := by
  rw [ofList, foldl_push]
  exact Nat.zero_add _

/-- One more item behind the others. -/
theorem ofList_append_singleton (items : List (Nat × α)) (width : Nat) (value : α) :
    ofList (items ++ [(width, value)]) = (ofList items).push width value := by
  rw [ofList, List.foldl_append]
  rfl

/-! ## (3) Searches -/

/-- A table is **increasing** if later entries start later. -/
def Increasing (t : OffsetTable α) : Prop :=
  ∀ i j, i < j → j < t.entries.size → t.start i < t.start j

/-- In an increasing table later entries start no earlier. -/
theorem Increasing.start_le (increasing : t.Increasing) {i j : Nat} (order : i ≤ j) (inside : j < t.entries.size) :
    t.start i ≤ t.start j := by
  rcases Nat.lt_or_eq_of_le order with before | rfl
  · exact Nat.le_of_lt (increasing i j before inside)
  · exact Nat.le_refl _

/-- In an increasing table no two entries start at one offset. -/
theorem Increasing.start_inj (increasing : t.Increasing) {i j : Nat} (inside : i < t.entries.size)
    (inside' : j < t.entries.size) (same : t.start i = t.start j) : i = j := by
  rcases Nat.lt_trichotomy i j with before | eq | behind
  · exact absurd same (Nat.ne_of_lt (increasing i j before inside'))
  · exact eq
  · exact absurd same (Nat.ne_of_gt (increasing j i behind inside))

/-- Items that take up room make an increasing table. -/
theorem increasing_ofList {items : List (Nat × α)} (positive : ∀ item ∈ items, 0 < item.1) :
    (ofList items).Increasing := by
  intro i j before inside
  rw [size_ofList] at inside
  rw [start_ofList (Nat.lt_trans before inside), start_ofList inside]
  refine startOf_lt (fun width mem => ?_) before (by rw [List.length_map]; omega)
  obtain ⟨item, here, rfl⟩ := List.mem_map.mp mem
  exact positive item here

/-- **The binary search** ends within its range, at an entry that starts no later than the offset
unless it is the first one of the range, and behind which all others of the range start later. -/
theorem narrow_spec (increasing : t.Increasing) (offset : Nat) {base count : Nat}
    (some_entries : 0 < count) (inside : base + count ≤ t.entries.size) :
    base ≤ t.narrow offset base count ∧ t.narrow offset base count < base + count
      ∧ (t.narrow offset base count = base ∨ t.start (t.narrow offset base count) ≤ offset)
      ∧ ∀ k, t.narrow offset base count < k → k < base + count → offset < t.start k := by
  -- The count shrinks by half its size at each turn, whichever half is left out.
  induction count using Nat.strongRecOn generalizing base with
  | ind count ih =>
    rw [narrow]
    by_cases single : count ≤ 1
    · rw [if_pos single]
      exact ⟨Nat.le_refl _, by omega, .inl rfl, fun k _ _ => by omega⟩
    · rw [if_neg single]
      have half_lt : count / 2 < count := Nat.div_lt_self some_entries (by decide)
      have half_pos : 0 < count / 2 := Nat.div_pos (by omega) (by decide)
      by_cases before : offset < t.start (base + count / 2)
      · -- All from the middle on start too late.
        rw [if_pos before]
        obtain ⟨low, high, here, behind⟩ :=
          ih (count - count / 2) (by omega) (by omega) (show base + _ ≤ _ by omega)
        refine ⟨low, by omega, here, fun k later bound => ?_⟩
        by_cases within : k < base + (count - count / 2)
        · exact behind k later within
        · rcases Nat.lt_or_eq_of_le (show base + count / 2 ≤ k by omega) with beyond | same
          · exact Nat.lt_trans before (increasing _ k beyond (by omega))
          · exact same ▸ before
      · -- The middle starts in time.
        rw [if_neg before]
        obtain ⟨low, high, here, behind⟩ :=
          ih (count - count / 2) (by omega) (by omega) (show base + count / 2 + _ ≤ _ by omega)
        refine ⟨by omega, by omega, .inr ?_, fun k later bound => behind k later (by omega)⟩
        rcases here with same | intime
        · rw [same]
          omega
        · exact intime

/-! ## (4) Answers -/

/-- What a table **answers** to an offset: the entry that starts there, or that all of them start before it, or
else the first one that starts behind it. -/
def Answers (t : OffsetTable α) (offset : Nat) : OffsetLookup α → Prop
  | .found index value => t.entries[index]? = some (offset, value)
  | .beyond => ∀ i < t.entries.size, t.start i < offset
  | .inside next => (∀ i < t.entries.size, t.start i ≠ offset)
      ∧ IsLeast {i | i < t.entries.size ∧ offset < t.start i} next

/-- The start of an entry that is there. -/
theorem start_of_getElem? {index start : Nat} {value : α} (here : t.entries[index]? = some (start, value)) :
    index < t.entries.size ∧ t.start index = start := by
  refine ⟨(Array.getElem?_eq_some_iff.mp here).1, ?_⟩
  rw [OffsetTable.start, here]
  rfl

/-- An entry that starts behind the offset, with all in front of it starting before the offset, is the answer. -/
theorem Increasing.answers_inside (increasing : t.Increasing) {next : Nat} (bound : next < t.entries.size)
    (behind : offset < t.start next) (before : ∀ i < next, t.start i < offset) :
    t.Answers offset (.inside next) := by
  refine ⟨fun i inside => ?_, ⟨bound, behind⟩, fun i ⟨inside, late⟩ => ?_⟩
  · rcases Nat.lt_or_ge i next with early | late
    · exact Nat.ne_of_lt (before i early)
    · exact Nat.ne_of_gt (Nat.lt_of_lt_of_le behind (increasing.start_le late inside))
  · by_contra early
    exact absurd (before i (Nat.lt_of_not_le early)) (Nat.not_lt_of_lt late)

/-- **A look-up answers** if later entries start later. -/
theorem answers_lookup (increasing : t.Increasing) (offset : Nat) : t.Answers offset (t.lookup offset) := by
  rw [lookup]
  dsimp only
  rcases Nat.eq_zero_or_pos t.entries.size with empty | some_entries
  · rw [Array.getElem?_eq_none (by omega)]
    intro i inside
    omega
  · obtain ⟨-, high, intime, behind⟩ := narrow_spec increasing offset some_entries
      (show 0 + t.entries.size ≤ t.entries.size by omega)
    generalize t.narrow offset 0 t.entries.size = index at high intime behind
    rw [Nat.zero_add] at high behind
    obtain ⟨⟨start, value⟩, here⟩ : ∃ entry, t.entries[index]? = some entry :=
      ⟨_, Array.getElem?_eq_getElem high⟩
    obtain ⟨-, starts⟩ := start_of_getElem? here
    have below {i : Nat} (order : i ≤ index) : t.start i ≤ start :=
      starts ▸ increasing.start_le order high
    rw [here]
    dsimp only
    by_cases same : start = offset
    · rw [if_pos same]
      exact same ▸ here
    · rw [if_neg same]
      by_cases early : start < offset
      · -- The search ended in front of the offset, so the next entry is the first one behind it.
        rw [if_pos early]
        by_cases last : index + 1 = t.entries.size
        · rw [if_pos last]
          exact fun i inside => Nat.lt_of_le_of_lt (below (by omega)) early
        · rw [if_neg last]
          refine increasing.answers_inside (by omega) (behind _ (by omega) (by omega)) fun i earlier => ?_
          exact Nat.lt_of_le_of_lt (below (by omega)) early
      · -- Only the first entry is taken although it starts too late.
        obtain rfl : index = 0 := by omega
        rw [if_neg early, if_neg (Nat.ne_of_lt some_entries)]
        exact increasing.answers_inside some_entries (by omega) fun i early => absurd early (Nat.not_lt_zero i)

/-- **There is one answer** to an offset if later entries start later, and a look-up gives it. -/
theorem lookup_eq_iff (increasing : t.Increasing) {answer : OffsetLookup α} :
    t.lookup offset = answer ↔ t.Answers offset answer := by
  constructor
  · rintro rfl
    exact answers_lookup increasing offset
  · intro right
    have given := answers_lookup increasing offset
    generalize t.lookup offset = answer' at given ⊢
    cases answer with
    | found index value =>
      obtain ⟨bound, starts⟩ := start_of_getElem? right
      cases answer' with
      | found index' value' =>
        obtain ⟨bound', starts'⟩ := start_of_getElem? given
        obtain rfl := increasing.start_inj bound' bound (starts'.trans starts.symm)
        rw [(Prod.mk.inj (Option.some.inj (given.symm.trans right))).2]
      | inside next => exact absurd starts (given.1 index bound)
      | beyond => exact absurd starts (Nat.ne_of_lt (given index bound))
    | beyond =>
      cases answer' with
      | found index value =>
        obtain ⟨bound, starts⟩ := start_of_getElem? given
        exact absurd starts (Nat.ne_of_lt (right index bound))
      | inside next =>
        obtain ⟨-, ⟨bound, behind⟩, -⟩ := given
        exact absurd behind (Nat.not_lt_of_lt (right next bound))
      | beyond => rfl
    | inside next =>
      obtain ⟨apart, least⟩ := right
      cases answer' with
      | found index value =>
        obtain ⟨bound, starts⟩ := start_of_getElem? given
        exact absurd starts (apart index bound)
      | inside other => rw [given.2.unique least]
      | beyond => exact absurd (given next least.1.1) (Nat.not_lt_of_lt least.1.2)

/-- **An offset is found exactly if an entry starts there**, as long as later entries start later. -/
theorem lookup_eq_found_iff (increasing : t.Increasing) {index : Nat} {value : α} :
    t.lookup offset = .found index value ↔ t.entries[index]? = some (offset, value) :=
  lookup_eq_iff increasing

/-- **The index that is found** is that of an entry which starts at the offset. -/
theorem index?_lookup_eq_some_iff (increasing : t.Increasing) {index : Nat} :
    (t.lookup offset).index? = some index ↔ ∃ value, t.entries[index]? = some (offset, value) := by
  constructor
  · intro found
    cases lookup : t.lookup offset with
    | found other value =>
      rw [lookup] at found
      obtain rfl : other = index := Option.some.inj found
      exact ⟨value, (lookup_eq_found_iff increasing).mp lookup⟩
    | inside next => rw [lookup] at found; cases found
    | beyond => rw [lookup] at found; cases found
  · rintro ⟨value, here⟩
    rw [(lookup_eq_found_iff increasing).mpr here]
    rfl

end OffsetTable

end Hotpatch
