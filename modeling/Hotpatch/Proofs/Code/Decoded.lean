import Hotpatch.Proofs.Code.DecodeBack

/-! # Bodies that are decoded

What a body is like that was decoded from any bytes, however long the forms in them: its handles are
positions, and it can be written again unless it is too large.

* **`Items`** — what code is cut into: admitted instructions over the offsets of their targets.
* **`items_of_cutOnto`** — cutting code gives such items.
* **`Body.Settled`** — canonical bodies whose branches reach their targets.
* **`DecodedFrom.settled`** — decoded bodies are settled: in the shorter layout no branch is longer
  than it was in the code. -/

namespace Hotpatch

open Instruction (Admitted)

/-! ## (1) Cutting -/

/-- **Items** cut from code with some tokens: instructions that these admit in the bytes they took,
over the offsets of their targets, which are displaced from where they end. -/
def Items (tokens : TokenTable) (items : List (Nat × Instruction Int)) : Prop :=
  ∀ (position : Nat) (item : Nat × Instruction Int), items[position]? = some item →
    ∃ i, Admitted tokens i item.1
      ∧ item.2 = i.relabel ((startOf (items.map (·.1)) (position + 1) : Int) + ·)

variable {tokens : TokenTable} {items : List (Nat × Instruction Int)}

/-- What stands behind does not move what stands in front. -/
theorem startOf_append_of_le {front behind : List Nat} {position : Nat}
    (inside : position ≤ front.length) :
    startOf (front ++ behind) position = startOf front position := by
  rw [startOf, List.take_append_of_le_length inside, startOf]

/-- **One more instruction** that is read makes one more item. -/
theorem Items.append_singleton (before : Items tokens items) {size : Nat} {i : Instruction Int}
    (admitted : Admitted tokens i size) :
    Items tokens (items ++ [(size, i.relabel (((items.map (·.1)).sum : Nat) + (size : Int) + ·))]) := by
  intro position item here
  rw [List.map_append]
  -- The items in front keep their starts; the new one stops where all together do.
  rcases Nat.lt_trichotomy position items.length with inside | last | beyond
  · rw [List.getElem?_append_left inside] at here
    obtain ⟨j, admits, same⟩ := before position item here
    rw [startOf_append_of_le (by rw [List.length_map]; omega)]
    exact ⟨j, admits, same⟩
  · rw [last, List.getElem?_concat_length] at here
    obtain rfl := Option.some.inj here
    have stop : startOf (items.map (·.1) ++ [size]) (position + 1) = (items.map (·.1)).sum + size := by
      rw [startOf, List.take_of_length_le (by simp [last]), List.sum_append, List.sum_singleton]
    refine ⟨i, admitted, ?_⟩
    rw [List.map_singleton, stop]
    push_cast
    rfl
  · rw [List.getElem?_eq_none (by simp; omega)] at here
    cases here

/-- **Cutting code** gives items, and no more of them than the limit allows. -/
theorem items_of_cutOnto {limit : Nat} {bytes : List UInt8} {cut : OffsetTable (Instruction Int)}
    (before : Items tokens items) (cuts : cutOnto tokens limit (.ofList items) bytes = .ok cut) :
    ∃ all, cut = .ofList all ∧ Items tokens all ∧ all.length ≤ items.length + limit := by
  induction limit generalizing items bytes with
  | zero =>
    cases bytes with
    | nil => exact ⟨items, (Except.ok.inj cuts).symm, before, Nat.le_refl _⟩
    | cons byte bytes => cases cuts
  | succ limit ih =>
    cases bytes with
    | nil => exact ⟨items, (Except.ok.inj cuts).symm, before, Nat.le_add_right _ _⟩
    | cons byte bytes =>
      rw [cutOnto] at cuts
      split at cuts
      · cases cuts
      · next i size rest read =>
        -- What was read is one more item behind the others.
        have admitted := Instruction.admitted_of_yields ⟨byte :: bytes, rest, read⟩
        rw [OffsetTable.total_ofList] at cuts
        dsimp only at cuts
        rw [← OffsetTable.ofList_append_singleton] at cuts
        obtain ⟨all, whole, each, few⟩ := ih (before.append_singleton admitted) cuts
        rw [List.length_append, List.length_singleton] at few
        exact ⟨all, whole, each, by omega⟩
      · exact List.cons_ne_nil byte bytes

/-- Items take up room. -/
theorem Items.pos (made : Items tokens items) : ∀ item ∈ items, 0 < item.1 := by
  intro item mem
  obtain ⟨position, here⟩ := List.mem_iff_getElem?.mp mem
  obtain ⟨i, admitted, -⟩ := made position item here
  exact Nat.lt_of_lt_of_le i.width_pos admitted.width_le

/-! ## (2) Targets -/

/-- The **index** of the item that starts at an offset; zero if none does. -/
def startsAt (items : List (Nat × Instruction Int)) (target : Int) : Nat :=
  ((OffsetTable.ofList items).lookup target.toNat).index?.getD 0

/-- A target that is resolved is the start of an item. -/
theorem Items.of_resolveTarget (made : Items tokens items) {source index : Nat} {target : Int}
    (resolved : resolveTarget (.ofList items) source target = .ok index) :
    index = startsAt items target ∧ index < items.length
      ∧ (startOf (items.map (·.1)) index : Int) = target := by
  rw [resolveTarget] at resolved
  split at resolved
  · cases resolved
  · next inside =>
    split at resolved
    · next found lookup =>
      obtain rfl := Except.ok.inj resolved
      refine ⟨by rw [startsAt, lookup]; rfl, ?_⟩
      -- Items are found at their starts only.
      obtain ⟨value, entry⟩ :=
        (OffsetTable.index?_lookup_eq_some_iff (OffsetTable.increasing_ofList made.pos)).mp lookup
      rw [OffsetTable.getElem?_ofList] at entry
      obtain ⟨item, here, same⟩ := Option.map_eq_some_iff.mp entry
      obtain ⟨start, -⟩ := Prod.mk.inj same
      exact ⟨(List.getElem?_eq_some_iff.mp here).1, by rw [start]; omega⟩
    · cases resolved

/-- **Resolved instructions** are over the indices of their targets. -/
theorem Items.of_mapM (made : Items tokens items) {instructions : List (Instruction Nat)}
    (resolved : (OffsetTable.ofList items).entries.toList.mapM (fun (source, instruction) =>
      instruction.mapLabels (resolveTarget (.ofList items) source)) = .ok instructions) :
    instructions.length = items.length
      ∧ ∀ (position : Nat) (k : Instruction Nat), instructions[position]? = some k →
        ∃ (size : Nat) (i : Instruction Int) (target : Int → Nat),
          (items.map (·.1))[position]? = some size ∧ Admitted tokens i size ∧ k = i.relabel target
          ∧ ∀ d ∈ i.targets, target d < items.length
            ∧ (startOf (items.map (·.1)) (target d) : Int)
              = startOf (items.map (·.1)) (position + 1) + d := by
  rw [OffsetTable.toList_entries_ofList, Attempt.mapM_eq_ok_iff, List.forall₂_iff_get] at resolved
  obtain ⟨length, each⟩ := resolved
  rw [OffsetTable.length_laidOut] at length
  refine ⟨length.symm, fun position k here => ?_⟩
  obtain ⟨bound, rfl⟩ := List.getElem?_eq_some_iff.mp here
  have inside : position < items.length := by omega
  have item := List.getElem?_eq_getElem inside
  obtain ⟨i, admitted, absolute⟩ := made position _ item
  have done := each position (by rwa [OffsetTable.length_laidOut]) bound
  have laid := OffsetTable.getElem?_laidOut 0 items position
  rw [List.getElem?_eq_getElem (by rwa [OffsetTable.length_laidOut]), item, Option.map_some] at laid
  rw [List.get_eq_getElem, Option.some.inj laid, List.get_eq_getElem] at done
  dsimp only at done
  rw [absolute] at done
  -- Every target of the instruction was resolved.
  have targets : ∀ d ∈ i.targets, ∃ index, resolveTarget (.ofList items)
      (0 + startOf (items.map (·.1)) position) (startOf (items.map (·.1)) (position + 1) + d)
      = .ok index := by
    intro d mem
    refine Instruction.exists_of_mapLabels done _ ?_
    rw [Instruction.targets_relabel]
    exact List.mem_map_of_mem mem
  refine ⟨_, i, fun d => startsAt items (startOf (items.map (·.1)) (position + 1) + d), ?_, admitted,
    ?_, ?_⟩
  · rw [List.getElem?_map, item, Option.map_some]
  · have relabelled := done.symm.trans (Instruction.mapLabels_relabel_of_forall fun d mem => by
      obtain ⟨index, resolved⟩ := targets d mem
      exact resolved.trans (congrArg Except.ok (made.of_resolveTarget resolved).1))
    exact Except.ok.inj relabelled
  · intro d mem
    obtain ⟨index, resolved⟩ := targets d mem
    obtain ⟨rfl, inside, start⟩ := made.of_resolveTarget resolved
    exact ⟨inside, start⟩

/-! ## (3) Bodies -/

namespace Body

/-- A body **decoded** from code with items of some sizes: every instruction is admitted in its size,
and each of its targets is where the displacement led to in the code. -/
structure DecodedFrom (b : Body) (tokens : TokenTable) (sizes : List Nat) : Prop where
  length : b.code.length = sizes.length
  current : b.offsetsAreCurrent = true
  handles : ∀ (position : Nat) (placed : Placed), b.code[position]? = some placed →
    placed.handle = ⟨position⟩
  each : ∀ (position : Nat) (placed : Placed), b.code[position]? = some placed →
    ∃ (size : Nat) (i : Instruction Int) (target : Int → Nat), sizes[position]? = some size
      ∧ Admitted tokens i size ∧ placed.instruction = i.relabel (fun d => ⟨target d⟩)
      ∧ ∀ d ∈ i.targets, target d < sizes.length
        ∧ (startOf sizes (target d) : Int) = startOf sizes (position + 1) + d

/-- **Decoded bodies** are canonical, however long the code. -/
theorem canonical_of_decodeCode {bytes : List UInt8} {d : DecodedCode}
    (decoded : decodeCode tokens bytes = .ok d) : d.body.Canonical := by
  obtain ⟨cut, -, decoded⟩ := Attempt.bind_eq_ok_iff.mp decoded
  obtain ⟨instructions, -, decoded⟩ := Attempt.bind_eq_ok_iff.mp decoded
  obtain ⟨body, made, whole⟩ := Attempt.bind_eq_ok_iff.mp decoded
  obtain rfl := Except.ok.inj whole
  exact canonical_of_ofInstructions made

/-- **What is decoded** from fewer than 2³² bytes comes from items of some sizes. -/
theorem decodedFrom_of_decodeCode {bytes : List UInt8} {d : DecodedCode}
    (short : bytes.length < 4294967296) (decoded : decodeCode tokens bytes = .ok d) :
    d.body.points = [] ∧ ∃ sizes, d.body.DecodedFrom tokens sizes := by
  obtain ⟨cut, cuts, decoded⟩ := Attempt.bind_eq_ok_iff.mp decoded
  obtain ⟨instructions, resolved, decoded⟩ := Attempt.bind_eq_ok_iff.mp decoded
  obtain ⟨body, made, whole⟩ := Attempt.bind_eq_ok_iff.mp decoded
  obtain rfl := Except.ok.inj whole
  have none : Items tokens [] := nofun
  obtain ⟨items, rfl, itemsMade, few⟩ := items_of_cutOnto none cuts
  rw [List.length_nil, Nat.zero_add] at few
  obtain ⟨length, each⟩ := itemsMade.of_mapM resolved
  refine ⟨points_of_ofInstructions made, items.map (·.1), ⟨?_, offsetsAreCurrent_of_ofInstructions made,
    (canonical_of_ofInstructions made).handles, fun position placed here => ?_⟩⟩
  · rw [length_of_ofInstructions made, length, List.length_map]
  · -- What is placed at a position is the instruction resolved for it.
    rw [getElem?_of_ofInstructions made] at here
    obtain ⟨k, there, rfl⟩ := Option.map_eq_some_iff.mp here
    obtain ⟨size, i, target, sized, admitted, rfl, targets⟩ := each position k there
    refine ⟨size, i, target, sized, admitted, ?_, ?_⟩
    · refine (Instruction.relabel_relabel _ _ _).trans (Instruction.relabel_congr fun d mem => ?_)
      have bound := (targets d mem).1
      rw [Handle.ofPosition_of_lt (by omega)]
    · rw [List.length_map]
      exact targets

/-- A **settled** body: canonical, and all its branches reach their targets. -/
structure Settled (b : Body) : Prop extends b.Canonical where
  within : ∀ placed ∈ b.code, (b.relative placed).WithinReach

variable {b : Body} {sizes : List Nat}

/-- **A settled body can be written** unless it is too large. -/
theorem Settled.fault?_eq (settled : b.Settled) :
    b.fault? = if maxCodeSize < b.codeSize then some (.codeTooLarge b.codeSize) else none := by
  have within : b.code.findSome? (fun placed => (b.relative placed).outOfReach? placed.offset)
      = none := by
    rw [List.findSome?_eq_none_iff]
    exact fun placed mem => Instruction.outOfReach?_eq_none (settled.within placed mem)
  rw [fault?, if_neg (by rw [settled.current]; decide), within]

namespace DecodedFrom

/-- Instructions take no more bytes than they did. -/
theorem widths_le (made : b.DecodedFrom tokens sizes) : List.Forall₂ (· ≤ ·) (widths b.code) sizes := by
  have length : (widths b.code).length = sizes.length := (List.length_map _).trans made.length
  refine List.forall₂_iff_get.mpr ⟨length, fun position bound bound' => ?_⟩
  rw [widths, List.length_map] at bound
  obtain ⟨size, i, target, sized, admitted, instruction, -⟩ :=
    made.each position _ (List.getElem?_eq_getElem bound)
  obtain ⟨_, same⟩ := List.getElem?_eq_some_iff.mp sized
  simp only [widths, List.get_eq_getElem, List.getElem_map, instruction, Instruction.width_relabel,
    same]
  exact admitted.width_le

/-- Targets are instructions of the body. -/
theorem targets_lt (made : b.DecodedFrom tokens sizes) {placed : Placed} (mem : placed ∈ b.code)
    {handle : Handle} (hit : handle ∈ placed.instruction.targets) : handle.index < b.code.length := by
  obtain ⟨position, here⟩ := List.mem_iff_getElem?.mp mem
  obtain ⟨size, i, target, -, -, instruction, targets⟩ := made.each position placed here
  rw [instruction, Instruction.targets_relabel] at hit
  obtain ⟨d, there, rfl⟩ := List.mem_map.mp hit
  rw [made.length]
  exact (targets d there).1

/-- The operands of the instructions are named by the tokens. -/
theorem names (made : b.DecodedFrom tokens sizes) {placed : Placed} (mem : placed ∈ b.code) :
    tokens.Names placed.instruction.operands := by
  obtain ⟨position, here⟩ := List.mem_iff_getElem?.mp mem
  obtain ⟨size, i, target, -, admitted, instruction, -⟩ := made.each position placed here
  rw [instruction, Instruction.operands_relabel]
  exact admitted.names

/-- **A decoded body is canonical**, without points. -/
theorem canonical (made : b.DecodedFrom tokens sizes) (noPoints : b.points = []) : b.Canonical where
  handles := made.handles
  current := made.current
  targets _ mem _ hit := made.targets_lt mem hit
  points := by
    rw [noPoints]
    exact nofun

/-- **Decoded bodies are settled.** -/
theorem settled (made : b.DecodedFrom tokens sizes) (noPoints : b.points = []) : b.Settled where
  toCanonical := made.canonical noPoints
  within placed mem := by
    have canonical := made.canonical noPoints
    obtain ⟨position, here⟩ := List.mem_iff_getElem?.mp mem
    obtain ⟨size, i, target, sized, admitted, instruction, targets⟩ := made.each position placed here
    rw [relative, stop_eq made.current here, instruction, Instruction.relabel_relabel]
    refine admitted.within.relabel fun d hit => ?_
    obtain ⟨inside, displaced⟩ := targets d hit
    rw [← made.length] at inside
    -- The displacement is now counted between the same two instructions in the new layout.
    have there := List.getElem?_eq_getElem inside
    have start := canonical.wellFormed.offsetOf_eq made.current there
    rw [made.handles _ _ there] at start
    have bound : position + 1 ≤ (widths b.code).length := by
      rw [widths, List.length_map]
      exact (List.getElem?_eq_some_iff.mp here).1
    have shrinks := startOf_shrinksTo made.widths_le (widths_pos b.code) bound (target d)
    rw [displaced, add_sub_cancel_left] at shrinks
    rw [start]
    exact shrinks.between

end DecodedFrom

end Body

end Hotpatch
