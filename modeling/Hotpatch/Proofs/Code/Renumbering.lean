import Hotpatch.Proofs.Code.Layout

/-! # Renumbered bodies

Handles say when an instruction was added, which no file keeps. A body that is written and read again
has the positions of its instructions for handles.

* **`Body.rank`**, **`Body.renumber`** — handles replaced by the positions of their instructions.
* **`Body.Canonical`** — bodies whose handles are positions.
* **`WellFormed.canonical_renumber`**, **`Canonical.renumber_eq`** — renumbered bodies are canonical,
  and canonical ones are as they are when renumbered.
* **`Body.ofInstructions_eq`**, **`canonical_of_ofInstructions`** — bodies made of lists of instructions are
  canonical. -/

namespace Hotpatch.Body

/-- The **rank** of a handle: the position of its instruction in the layout, as a handle. -/
def rank (b : Body) (handle : Handle) : Handle :=
  match b.position? handle with
  | some position => ⟨position⟩
  | none => handle

/-- **Renumber**: every handle in the layout, in targets and in sequence points becomes the position
of its instruction. -/
def renumber (b : Body) : Body :=
  { b with
    points := b.points.map fun point => { point with instruction := b.rank point.instruction }
    code := b.code.mapIdx fun position placed =>
      ⟨⟨position⟩, placed.offset, placed.instruction.relabel b.rank⟩ }

/-- A **canonical** body: the handles are the positions, the offsets are current, and nothing refers
to other instructions than its own. -/
structure Canonical (b : Body) : Prop where
  handles : ∀ (position : Nat) (placed : Placed), b.code[position]? = some placed →
    placed.handle = ⟨position⟩
  current : b.offsetsAreCurrent = true
  targets : ∀ placed ∈ b.code, ∀ target ∈ placed.instruction.targets, target.index < b.code.length
  points : ∀ point ∈ b.points, point.instruction.index < b.code.length

/-! ## (1) Ranks -/

variable {b : Body}

/-- The rank of the handle at a position is the position. -/
theorem rank_of_getElem? (distinct : b.Distinct) {position : Nat} {placed : Placed}
    (here : b.code[position]? = some placed) : b.rank placed.handle = ⟨position⟩ := by
  rw [rank, position?_of_getElem? distinct here]

/-- The handles of a well-formed body have ranks, where they are placed. -/
theorem WellFormed.exists_rank (wf : b.WellFormed) {handle : Handle}
    (inside : handle.index < b.code.length) :
    ∃ (position : Nat) (placed : Placed), b.code[position]? = some placed ∧ placed.handle = handle
      ∧ b.rank handle = ⟨position⟩ := by
  obtain ⟨position, placed, here, rfl⟩ := wf.exists_position inside
  exact ⟨position, placed, here, rfl, rank_of_getElem? wf.distinct here⟩

/-- Ranks are positions of the layout. -/
theorem WellFormed.rank_lt (wf : b.WellFormed) {handle : Handle}
    (inside : handle.index < b.code.length) : (b.rank handle).index < b.code.length := by
  obtain ⟨position, placed, here, -, rank⟩ := wf.exists_rank inside
  rw [rank]
  exact (List.getElem?_eq_some_iff.mp here).1

/-- What is placed at a position of a renumbered body. -/
@[simp, grind =] theorem getElem?_renumber (b : Body) (position : Nat) :
    b.renumber.code[position]? = b.code[position]?.map fun placed =>
      ⟨⟨position⟩, placed.offset, placed.instruction.relabel b.rank⟩ :=
  List.getElem?_mapIdx

/-! ## (2) Canonical bodies -/

/-- Handles that are positions are all different. -/
theorem Canonical.distinct (canonical : b.Canonical) : b.Distinct := by
  rw [Distinct, List.nodup_iff_injective_get]
  intro i j same
  have one := canonical.handles i _ (List.getElem?_eq_getElem (by simpa using i.isLt))
  have other := canonical.handles j _ (List.getElem?_eq_getElem (by simpa using j.isLt))
  simp only [List.get_eq_getElem, List.getElem_map] at same
  rw [one, other] at same
  exact Fin.ext (Handle.mk.inj same)

/-- **Canonical bodies are well formed.** -/
theorem Canonical.wellFormed (canonical : b.Canonical) : b.WellFormed := by
  refine ⟨?_, canonical.targets⟩
  -- The handles are the positions from zero on.
  have indices : b.code.map (·.handle.index) = List.range b.code.length := by
    refine List.ext_getElem? fun position => ?_
    rw [List.getElem?_map]
    cases here : b.code[position]? with
    | none => simpa using here
    | some placed =>
      obtain ⟨bound, -⟩ := List.getElem?_eq_some_iff.mp here
      rw [List.getElem?_range bound, Option.map_some, canonical.handles position placed here]
  rw [indices]

/-- The rank of a handle of a canonical body is the handle. -/
theorem Canonical.rank_eq (canonical : b.Canonical) {handle : Handle}
    (inside : handle.index < b.code.length) : b.rank handle = handle := by
  have here := List.getElem?_eq_getElem inside
  have same := canonical.handles handle.index _ here
  have rank := rank_of_getElem? canonical.distinct here
  rw [same] at rank
  exact rank

/-- The position of a handle of a canonical body is its index. -/
theorem Canonical.position?_eq (canonical : b.Canonical) {handle : Handle}
    (inside : handle.index < b.code.length) : b.position? handle = some handle.index := by
  have here := List.getElem?_eq_getElem inside
  have position := position?_of_getElem? canonical.distinct here
  rwa [canonical.handles handle.index _ here] at position

/-- Renumbering leaves no other handles than positions. -/
theorem WellFormed.canonical_renumber (wf : b.WellFormed) (current : b.offsetsAreCurrent = true)
    (points : ∀ point ∈ b.points, point.instruction.index < b.code.length) :
    b.renumber.Canonical := by
  have length : b.renumber.code.length = b.code.length := List.length_mapIdx
  refine ⟨fun position placed here => ?_, ?_, fun placed mem target hit => ?_, fun point mem => ?_⟩
  · rw [getElem?_renumber, Option.map_eq_some_iff] at here
    obtain ⟨before, -, rfl⟩ := here
    rfl
  · have widths : widths b.renumber.code = widths b.code := by
      refine List.ext_getElem? fun position => ?_
      rw [Body.widths, List.getElem?_map, getElem?_renumber, Option.map_map, Body.widths,
        List.getElem?_map]
      exact congrArg (Option.map · _) (funext fun placed => Instruction.width_relabel _ _)
    rw [offsetsAreCurrent_iff, widths]
    intro position placed here
    rw [getElem?_renumber, Option.map_eq_some_iff] at here
    obtain ⟨before, there, rfl⟩ := here
    exact offsetsAreCurrent_iff.mp current position before there
  · obtain ⟨position, here⟩ := List.mem_iff_getElem?.mp mem
    rw [getElem?_renumber, Option.map_eq_some_iff] at here
    obtain ⟨before, there, rfl⟩ := here
    rw [Instruction.targets_relabel] at hit
    obtain ⟨old, isTarget, rfl⟩ := List.mem_map.mp hit
    rw [length]
    exact wf.rank_lt (wf.targets before (List.mem_of_getElem? there) old isTarget)
  · obtain ⟨before, inside, rfl⟩ := List.mem_map.mp mem
    rw [length]
    exact wf.rank_lt (points before inside)

/-- **Renumbering changes nothing** in a canonical body. -/
theorem Canonical.renumber_eq (canonical : b.Canonical) : b.renumber = b := by
  have points : (b.points.map fun point => { point with instruction := b.rank point.instruction })
      = b.points := by
    refine (List.map_congr_left fun point mem => ?_).trans (List.map_id b.points)
    rw [canonical.rank_eq (canonical.points point mem)]
    rfl
  have code : (b.code.mapIdx fun position placed =>
      (⟨⟨position⟩, placed.offset, placed.instruction.relabel b.rank⟩ : Placed)) = b.code := by
    refine List.ext_getElem? fun position => ?_
    rw [List.getElem?_mapIdx]
    cases here : b.code[position]? with
    | none => rfl
    | some placed =>
      have targets := canonical.targets placed (List.mem_of_getElem? here)
      rw [Option.map_some, ← canonical.handles position placed here,
        Instruction.relabel_eq_self fun target mem => canonical.rank_eq (targets target mem)]
  rw [renumber, points, code]

/-! ## (3) Bodies of lists -/

/-- The widths of instructions that are placed one behind the other. -/
@[simp] theorem widths_mapIdx (instructions : List (Instruction Handle)) :
    widths (instructions.mapIdx fun position i => ⟨⟨position⟩, 0, i⟩)
      = instructions.map Instruction.width := by
  refine List.ext_getElem? fun position => ?_
  rw [widths, List.getElem?_map, List.getElem?_mapIdx, List.getElem?_map, Option.map_map]
  rfl

/-- **A body of a list of instructions** whose targets are positions in it. -/
theorem ofInstructions_eq {instructions : List (Instruction Nat)}
    (below : ∀ i ∈ instructions, ∀ position ∈ i.targets, position < instructions.length) :
    ofInstructions instructions = .ok { empty with
      code := layOut 0 ((instructions.map (·.relabel .ofPosition)).mapIdx fun position i =>
        ⟨⟨position⟩, 0, i⟩) } := by
  have resolved : instructions.mapM (·.mapLabels (target instructions.length))
      = .ok (instructions.map (·.relabel .ofPosition)) :=
    Attempt.mapM_of_forall fun i mem =>
      Instruction.mapLabels_of_forall fun position hit => if_pos (below i mem position hit)
  rw [ofInstructions]
  dsimp only
  rw [resolved]
  rfl

/-- **The instructions of a body over positions** make the renumbered body, if its offsets are current
and the positions fit into handles. -/
theorem WellFormed.ofInstructions_ranks (wf : b.WellFormed) (current : b.offsetsAreCurrent = true)
    (short : b.code.length ≤ 4294967296) :
    ofInstructions (b.code.map fun placed =>
        placed.instruction.relabel fun target => (b.rank target).index)
      = .ok { empty with code := b.renumber.code } := by
  -- Ranks are positions of the layout, so no target is missing.
  have below : ∀ i ∈ b.code.map (fun placed =>
      placed.instruction.relabel fun target => (b.rank target).index), ∀ position ∈ i.targets,
      position < (b.code.map fun placed =>
        placed.instruction.relabel fun target => (b.rank target).index).length := by
    intro i mem position hit
    obtain ⟨placed, here, rfl⟩ := List.mem_map.mp mem
    rw [Instruction.targets_relabel] at hit
    obtain ⟨target, there, rfl⟩ := List.mem_map.mp hit
    rw [List.length_map]
    exact wf.rank_lt (wf.targets placed here target there)
  rw [ofInstructions_eq below]
  -- The bodies agree position by position.
  refine congrArg (fun code => Except.ok { empty with code }) (List.ext_getElem? fun position => ?_)
  rw [getElem?_layOut, getElem?_renumber, List.getElem?_mapIdx, List.getElem?_map, List.getElem?_map]
  cases here : b.code[position]? with
  | none => rfl
  | some placed =>
    have ranks : (placed.instruction.relabel fun target => (b.rank target).index).relabel .ofPosition
        = placed.instruction.relabel b.rank := by
      rw [Instruction.relabel_relabel]
      refine Instruction.relabel_congr fun target hit => ?_
      have inside := wf.rank_lt (wf.targets placed (List.mem_of_getElem? here) target hit)
      rw [Handle.ofPosition_of_lt (by omega)]
    have widths : widths (((b.code.map fun placed => placed.instruction.relabel fun target =>
        (b.rank target).index).map (·.relabel .ofPosition)).mapIdx fun position i =>
          (⟨⟨position⟩, 0, i⟩ : Placed)) = widths b.code := by
      rw [widths_mapIdx, List.map_map, List.map_map]
      refine List.map_congr_left fun other _ => ?_
      exact (Instruction.width_relabel _ _).trans (Instruction.width_relabel _ _)
    simp only [Option.map_some, widths, ranks, Nat.zero_add,
      offsetsAreCurrent_iff.mp current position placed here]

/-- Only lists whose targets are positions in them make bodies. -/
theorem lt_of_ofInstructions {instructions : List (Instruction Nat)}
    (made : ofInstructions instructions = .ok b) :
    ∀ i ∈ instructions, ∀ position ∈ i.targets, position < instructions.length := by
  intro i mem position hit
  obtain ⟨resolved, each, -⟩ := Attempt.bind_eq_ok_iff.mp made
  obtain ⟨j, done⟩ := Attempt.exists_of_mapM each i mem
  obtain ⟨handle, here⟩ := Instruction.exists_of_mapLabels done position hit
  rw [target] at here
  split at here
  · assumption
  · cases here

section OfInstructions

variable {instructions : List (Instruction Nat)} (made : ofInstructions instructions = .ok b)

include made

/-- **What is placed** in a body of a list: its instructions, under their positions. -/
theorem getElem?_of_ofInstructions (position : Nat) :
    b.code[position]? = instructions[position]?.map fun i =>
      ⟨⟨position⟩, startOf (widths b.code) position, i.relabel .ofPosition⟩ := by
  obtain rfl := Except.ok.inj ((ofInstructions_eq (lt_of_ofInstructions made)).symm.trans made)
  rw [getElem?_layOut, List.getElem?_mapIdx, List.getElem?_map, Option.map_map, Option.map_map,
    widths_layOut]
  simp only [Function.comp_def, Nat.zero_add]

/-- A body of a list has as many instructions. -/
theorem length_of_ofInstructions : b.code.length = instructions.length := by
  obtain rfl := Except.ok.inj ((ofInstructions_eq (lt_of_ofInstructions made)).symm.trans made)
  rw [length_layOut, List.length_mapIdx, List.length_map]

/-- The offsets of a body of a list are current. -/
theorem offsetsAreCurrent_of_ofInstructions : b.offsetsAreCurrent = true := by
  obtain rfl := Except.ok.inj ((ofInstructions_eq (lt_of_ofInstructions made)).symm.trans made)
  exact isLaidOut_layOut 0 _

/-- A body of a list has no sequence points. -/
theorem points_of_ofInstructions : b.points = [] := by
  obtain rfl := Except.ok.inj ((ofInstructions_eq (lt_of_ofInstructions made)).symm.trans made)
  rfl

/-- **Bodies of lists are canonical.** -/
theorem canonical_of_ofInstructions : b.Canonical := by
  have code := getElem?_of_ofInstructions made
  refine ⟨fun position placed here => ?_, offsetsAreCurrent_of_ofInstructions made,
    fun placed mem target hit => ?_, ?_⟩
  · rw [code] at here
    obtain ⟨i, -, rfl⟩ := Option.map_eq_some_iff.mp here
    rfl
  · obtain ⟨position, here⟩ := List.mem_iff_getElem?.mp mem
    rw [code] at here
    obtain ⟨i, there, rfl⟩ := Option.map_eq_some_iff.mp here
    rw [Instruction.targets_relabel] at hit
    obtain ⟨old, isTarget, rfl⟩ := List.mem_map.mp hit
    have inside := lt_of_ofInstructions made i (List.mem_of_getElem? there) old isTarget
    rw [length_of_ofInstructions made]
    -- Cutting a position down to the width of a handle does not make it larger.
    exact Nat.lt_of_le_of_lt (Nat.mod_le old _) inside
  · rw [points_of_ofInstructions made]
    exact nofun

end OfInstructions

end Hotpatch.Body
