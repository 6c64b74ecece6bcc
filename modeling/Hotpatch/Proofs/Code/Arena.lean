import Hotpatch.Code.Body
import Mathlib.Data.List.Nodup
import Mathlib.Data.List.Range

/-! # Handles and positions of a well-formed body

In a well-formed body the handles below the number of instructions stand in the layout once each, so
a handle and its position determine each other.

* **`Body.Distinct`** — no handle stands in the layout twice; `WellFormed.distinct` gives it.
* **`position?_eq_some_iff`**, **`find?_eq_some_iff`** — the look-ups by handle, read as look-ups by
  position.
* **`WellFormed.exists_position`** — every handle below the number of instructions has a position.
* **`WellFormed.ofPosition_index`** — handles are the positions they were made from, if these fit in their
  number. -/

namespace Hotpatch

/-- Handles with the same index are the same. -/
@[ext] theorem Handle.ext {first second : Handle} (same : first.index = second.index) :
    first = second := by
  cases first
  cases second
  rw [Handle.mk.injEq]
  exact same

namespace Body

/-! ## (1) Distinct handles -/

/-- **Distinct handles**: no two positions of the layout hold the same handle. -/
def Distinct (b : Body) : Prop :=
  (b.code.map (·.handle)).Nodup

/-- A well-formed body has distinct handles: their indices are a permutation of `List.range`. -/
theorem WellFormed.distinct {b : Body} (wf : b.WellFormed) : b.Distinct := by
  have indices : (b.code.map (·.handle.index)).Nodup :=
    wf.handles.nodup_iff.mpr List.nodup_range
  have split : b.code.map (·.handle.index) = (b.code.map (·.handle)).map (·.index) := by
    rw [List.map_map]
    rfl
  rw [split] at indices
  exact indices.of_map

/-- Handles of a well-formed body are below the number of its instructions. -/
theorem WellFormed.handle_lt {b : Body} (wf : b.WellFormed) {placed : Placed}
    (mem : placed ∈ b.code) : placed.handle.index < b.code.length := by
  have index : placed.handle.index ∈ b.code.map fun entry => entry.handle.index :=
    List.mem_map.mpr ⟨placed, mem, rfl⟩
  rw [wf.handles.mem_iff] at index
  exact List.mem_range.mp index

/-- **No handle is cut down** to 32 bits in a body of at most 2³² instructions. -/
theorem WellFormed.ofPosition_index {b : Body} (wf : b.WellFormed) (short : b.code.length ≤ 4294967296)
    {placed : Placed} (mem : placed ∈ b.code) : .ofPosition placed.handle.index = placed.handle :=
  Handle.ofPosition_of_lt ((wf.handle_lt mem).trans_le short)

/-- The first instruction of a well-formed body has such a handle. -/
theorem WellFormed.first_lt {b : Body} (wf : b.WellFormed) {first : Handle}
    (starts : b.first? = some first) : first.index < b.code.length := by
  obtain ⟨placed, here, rfl⟩ := Option.map_eq_some_iff.mp starts
  exact wf.handle_lt (List.mem_of_mem_head? here)

/-- Every handle below the number of instructions is placed somewhere in a well-formed body. -/
theorem WellFormed.exists_position {b : Body} (wf : b.WellFormed) {handle : Handle}
    (small : handle.index < b.code.length) :
    ∃ (position : Nat) (placed : Placed),
      b.code[position]? = some placed ∧ placed.handle = handle := by
  have index : handle.index ∈ b.code.map (·.handle.index) :=
    wf.handles.mem_iff.mpr (List.mem_range.mpr small)
  obtain ⟨placed, mem, same⟩ := List.mem_map.mp index
  obtain ⟨position, found⟩ := List.mem_iff_getElem?.mp mem
  exact ⟨position, placed, found, Handle.ext same⟩

/-! ## (2) Looking up by handle -/

variable {b : Body} {handle : Handle} {placed : Placed} {position : Nat}

/-- In a body with distinct handles a handle is at a position exactly when the position holds it. -/
theorem position?_eq_some_iff (distinct : b.Distinct) :
    b.position? handle = some position ↔ b.handleAt? position = some handle := by
  rw [position?, handleAt?, List.findIdx?_eq_some_iff_getElem, Option.map_eq_some_iff]
  constructor
  · rintro ⟨bound, same, -⟩
    exact ⟨b.code[position], List.getElem?_eq_getElem bound, by simpa using same⟩
  · rintro ⟨placed, found, rfl⟩
    obtain ⟨bound, rfl⟩ := List.getElem?_eq_some_iff.mp found
    refine ⟨bound, by simp, fun other before same => ?_⟩
    -- An instruction found earlier would have the same handle at another position.
    have inside : other < (b.code.map (·.handle)).length := by
      rw [List.length_map]
      exact before.trans bound
    have inside' : position < (b.code.map (·.handle)).length := by
      rwa [List.length_map]
    have equal : (b.code.map (·.handle))[other] = (b.code.map (·.handle))[position] := by
      simpa using same
    exact before.ne ((List.Nodup.getElem_inj_iff distinct).mp equal)

/-- In a body with distinct handles a look-up by handle gives what is placed under it. -/
theorem find?_eq_some_iff (distinct : b.Distinct) :
    b.find? handle = some placed ↔ placed ∈ b.code ∧ placed.handle = handle := by
  constructor
  · intro found
    exact ⟨List.mem_of_find?_eq_some found, by simpa using List.find?_some found⟩
  · rintro ⟨mem, rfl⟩
    -- Something is found under the handle, and what is found can only be this.
    have present : (b.find? placed.handle).isSome := by
      rw [find?, List.find?_isSome]
      exact ⟨placed, mem, beq_self_eq_true _⟩
    obtain ⟨other, found⟩ := Option.isSome_iff_exists.mp present
    have same : other.handle = placed.handle := by simpa using List.find?_some found
    rw [found, List.inj_on_of_nodup_map distinct (List.mem_of_find?_eq_some found) mem same]

/-- The instruction of the handle at a position is the one at the position. -/
theorem instruction?_of_getElem? (distinct : b.Distinct) (here : b.code[position]? = some placed) :
    b.instruction? placed.handle = some placed.instruction := by
  have found : b.find? placed.handle = some placed :=
    (find?_eq_some_iff distinct).mpr ⟨List.mem_of_getElem? here, rfl⟩
  rw [instruction?, found, Option.map_some]

/-- The offset of the handle at a position is the one at the position. -/
theorem offset?_of_getElem? (distinct : b.Distinct) (here : b.code[position]? = some placed) :
    b.offset? placed.handle = some placed.offset := by
  have found : b.find? placed.handle = some placed :=
    (find?_eq_some_iff distinct).mpr ⟨List.mem_of_getElem? here, rfl⟩
  rw [offset?, found, Option.map_some]

/-- The position of the handle at a position is that position. -/
theorem position?_of_getElem? (distinct : b.Distinct) (here : b.code[position]? = some placed) :
    b.position? placed.handle = some position := by
  rw [position?_eq_some_iff distinct, handleAt?, here, Option.map_some]

end Body

end Hotpatch
