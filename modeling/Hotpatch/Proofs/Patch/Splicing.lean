import Hotpatch.Patch.Splice
import Hotpatch.Proofs.Code.Insertion
import Hotpatch.Proofs.Patch.PreambleShape

/-! # Splicing a preamble

What a body looks like once a preamble was put in front of it.

* **`Body.enlist`** — instructions under the next free handles.
* **`Body.Grounded`** — instructions that branch to nothing that is not there when they are put in.
* **`Body.accept_of_grounded`**, **`Body.accept_of_refused`** — which instructions a splice puts in.
* **`Body.splice_of_grounded`**, **`Body.splice_of_refused`** — the splice of such a preamble.
* **`Body.splice_of_build`** — the preamble of a method can always be spliced into its body. -/

namespace Hotpatch

namespace Body

variable {b c : Body} {p : Preamble} {i : Instruction Handle} {count : Nat}
  {instructions : List (Instruction Handle)}

/-! ## (1) Enlisting -/

/-- **Enlist** instructions under the handles from `count` on, as a splice places them. -/
def enlist (count : Nat) (instructions : List (Instruction Handle)) : List Placed :=
  instructions.mapIdx fun position instruction => ⟨⟨count + position⟩, 0, instruction⟩

/-- The enlisted instruction at a position has the handle `count` further on. -/
@[simp, grind =] theorem getElem?_enlist (count position : Nat) (instructions : List (Instruction Handle)) :
    (enlist count instructions)[position]?
      = instructions[position]?.map fun instruction => ⟨⟨count + position⟩, 0, instruction⟩ := by
  rw [enlist, List.getElem?_mapIdx]

/-- As many are enlisted as there are instructions. -/
@[simp] theorem length_enlist (count : Nat) (instructions : List (Instruction Handle)) :
    (enlist count instructions).length = instructions.length := by
  rw [enlist, List.length_mapIdx]

/-- The first instruction is enlisted under `count`, the others under the handles behind it. -/
@[simp] theorem enlist_cons (count : Nat) (i : Instruction Handle) (rest : List (Instruction Handle)) :
    enlist count (i :: rest) = ⟨⟨count⟩, 0, i⟩ :: enlist (count + 1) rest := by
  unfold enlist
  rw [List.mapIdx_cons]
  simp only [Nat.add_zero, Nat.add_right_comm, Nat.add_assoc]

/-- Enlisting keeps the instructions and their order. -/
@[simp] theorem map_instruction_enlist (count : Nat) (instructions : List (Instruction Handle)) :
    (enlist count instructions).map (·.instruction) = instructions := by
  refine List.ext_getElem? fun position => ?_
  rw [List.getElem?_map, getElem?_enlist, Option.map_map]
  exact Option.map_id'

/-- The handles in the front of code that starts with enlisted instructions. -/
theorem handleAt?_of_enlist_append {position : Nat} {behind : List Placed}
    (code : c.code = enlist count instructions ++ behind) (bound : position < instructions.length) :
    c.handleAt? position = some ⟨count + position⟩ := by
  rw [handleAt?, code, List.getElem?_append_left (by rwa [length_enlist]), getElem?_enlist,
    List.getElem?_eq_getElem bound, Option.map_some, Option.map_some]

/-- The instructions in the front of code that starts with enlisted instructions. -/
theorem prefix_of_enlist_append {behind : List Placed} (code : c.code = enlist count instructions ++ behind) :
    instructions <+: c.code.map (·.instruction) := by
  rw [code, List.map_append, map_instruction_enlist]
  exact List.prefix_append _ _

/-- Enlisted instructions have offset zero. -/
theorem offset_of_mem_enlist {placed : Placed} (mem : placed ∈ enlist count instructions) :
    placed.offset = 0 := by
  obtain ⟨position, bound, rfl⟩ := List.mem_mapIdx.mp mem
  rfl

/-- Enlisted instructions have handles from `count` on. -/
theorem le_index_of_mem_enlist {placed : Placed} (mem : placed ∈ enlist count instructions) :
    count ≤ placed.handle.index := by
  obtain ⟨position, here⟩ := List.mem_iff_getElem?.mp mem
  rw [getElem?_enlist, Option.map_eq_some_iff] at here
  obtain ⟨instruction, -, rfl⟩ := here
  exact Nat.le_add_right count position

/-! ## (2) What is accepted -/

/-- **Grounded** instructions, under handles from `count` on: each branches only to handles that are there
before it. -/
def Grounded (count : Nat) (instructions : List (Instruction Handle)) : Prop :=
  ∀ (position : Nat) (instruction : Instruction Handle), instructions[position]? = some instruction →
    ∀ target ∈ instruction.targets, target.index < count + position

/-- The first of some grounded instructions branches below `count`, the others are grounded one further on.
-/
theorem grounded_cons_iff {rest : List (Instruction Handle)} :
    Grounded count (i :: rest) ↔ (∀ target ∈ i.targets, target.index < count) ∧ Grounded (count + 1) rest := by
  constructor
  · intro grounded
    refine ⟨grounded 0 i rfl, ?_⟩
    intro position other here target hit
    have below := grounded (position + 1) other here target hit
    omega
  · rintro ⟨first, others⟩ position other here target hit
    cases position with
    | zero =>
      obtain rfl := Option.some.inj here
      exact first target hit
    | succ position =>
      have below := others position other here target hit
      omega

/-- Instructions that branch only to what is there already are grounded. -/
theorem grounded_of_forall
    (below : ∀ i ∈ instructions, ∀ target ∈ i.targets, target.index < count) :
    Grounded count instructions :=
  fun position i here target hit =>
    Nat.lt_add_right position (below i (List.mem_of_getElem? here) target hit)

/-- **Grounded instructions are accepted** in front of any others. -/
theorem accept_append {before : List (Instruction Handle)} (grounded : Grounded count before)
    (rest : List (Instruction Handle)) :
    accept count (before ++ rest)
      = (enlist count before ++ (accept (count + before.length) rest).1,
        (accept (count + before.length) rest).2) := by
  induction before generalizing count with
  | nil => rfl
  | cons i before ih =>
    obtain ⟨first, others⟩ := grounded_cons_iff.mp grounded
    rw [List.cons_append, accept, checkTargets_eq_ok_iff.mpr first, ih others, enlist_cons, List.length_cons]
    simp only [List.cons_append, Nat.add_right_comm, Nat.add_assoc]

/-- **All grounded instructions are accepted.** -/
theorem accept_of_grounded (grounded : Grounded count instructions) :
    accept count instructions = (enlist count instructions, .ok ()) := by
  have all := accept_append grounded []
  simpa [accept] using all

/-- **The first instruction that is not grounded is refused**, for its first target that is not there, and
those before it are accepted. -/
theorem accept_of_refused {before after : List (Instruction Handle)} {target : Handle}
    (grounded : Grounded count before)
    (refused : i.targets.find? (fun target => count + before.length ≤ target.index) = some target) :
    accept count (before ++ i :: after) = (enlist count before, .error (.danglingTarget target)) := by
  have fails : checkTargets (count + before.length) i = .error (.danglingTarget target) :=
    checkTargets_eq_error_iff.mpr ⟨target, refused, rfl⟩
  rw [accept_append grounded, accept, fails]
  simp

/-- Instructions are grounded, or there is a first one that is not. -/
theorem grounded_or_refused (count : Nat) (instructions : List (Instruction Handle)) :
    Grounded count instructions ∨ ∃ before i after target, instructions = before ++ i :: after
      ∧ Grounded count before
      ∧ i.targets.find? (fun target => count + before.length ≤ target.index) = some target := by
  induction instructions generalizing count with
  | nil => exact .inl nofun
  | cons i rest ih =>
    cases found : i.targets.find? (fun target => count ≤ target.index) with
    | some target => exact .inr ⟨[], i, rest, target, rfl, nofun, found⟩
    | none =>
      have first : ∀ target ∈ i.targets, target.index < count := by
        simpa using found
      rcases ih (count + 1) with all | ⟨before, j, after, target, rfl, grounded, refused⟩
      · exact .inl (grounded_cons_iff.mpr ⟨first, all⟩)
      · refine .inr ⟨i :: before, j, after, target, rfl, grounded_cons_iff.mpr ⟨first, grounded⟩, ?_⟩
        rwa [List.length_cons, Nat.add_comm before.length, ← Nat.add_assoc]

/-! ## (3) Splicing -/

/-- **The splice of a grounded preamble**: its instructions stand in front of the body's under the next free
handles, and nothing else changes but the depth of the stack. -/
theorem splice_of_grounded (starts : b.first? = some p.resume)
    (grounded : Grounded b.code.length p.instructions) :
    b.splice p
      = ({ b with
            maxStack := if p.instructions = [] then b.maxStack else max b.maxStack p.maxStack
            code := enlist b.code.length p.instructions ++ b.code },
          .ok ⟨if p.instructions = [] then p.resume else ⟨b.code.length⟩, p.resume,
            p.instructions.length⟩) := by
  unfold splice
  rw [starts]
  dsimp only
  rw [if_neg (not_not.mpr rfl), accept_of_grounded grounded]
  cases shape : p.instructions with
  | nil => rfl
  | cons i rest =>
    rw [enlist_cons, if_neg (List.cons_ne_nil i rest), if_neg (List.cons_ne_nil i rest)]

/-- **The splice of a preamble that is not grounded** puts in what is in front of the instruction that is
refused. -/
theorem splice_of_refused {before after : List (Instruction Handle)} {target : Handle}
    (starts : b.first? = some p.resume) (shape : p.instructions = before ++ i :: after)
    (grounded : Grounded b.code.length before)
    (refused : i.targets.find? (fun target => b.code.length + before.length ≤ target.index) = some target) :
    b.splice p
      = ({ b with code := enlist b.code.length before ++ b.code }, .error (.danglingTarget target)) := by
  unfold splice
  rw [starts]
  dsimp only
  rw [if_neg (not_not.mpr rfl), shape, accept_of_refused grounded refused]

/-- Enlisting behind the handles of a well-formed body keeps the handles distinct. -/
theorem WellFormed.distinct_enlist_append (wf : b.WellFormed)
    (code : c.code = enlist b.code.length instructions ++ b.code) : c.Distinct := by
  rw [Distinct, code, List.map_append, List.nodup_append]
  -- New handles differ among each other by position, and from the old ones by being larger.
  refine ⟨?_, wf.distinct, ?_⟩
  · rw [List.nodup_iff_getElem?_ne_getElem?]
    intro i j before bound
    simp only [List.length_map, length_enlist] at bound
    simp only [List.getElem?_map, getElem?_enlist, List.getElem?_eq_getElem bound,
      List.getElem?_eq_getElem (before.trans bound), Option.map_some, ne_eq, Option.some.injEq,
      Handle.mk.injEq]
    omega
  · intro new isNew old isOld same
    obtain ⟨placed, mem, rfl⟩ := List.mem_map.mp isNew
    obtain ⟨other, otherMem, rfl⟩ := List.mem_map.mp isOld
    have large := le_index_of_mem_enlist mem
    rw [same] at large
    exact absurd (wf.handle_lt otherMem) (Nat.not_lt.mpr large)

/-- The preamble of a method branches to nothing but the first instruction of its body. -/
theorem WellFormed.targets_lt_of_build (wf : b.WellFormed) {first : Handle}
    (starts : b.first? = some first) {t : MethodTarget} {registry : PatchRegistry}
    (built : Preamble.build t registry first = .ok p) :
    ∀ instruction ∈ p.instructions, ∀ target ∈ instruction.targets, target.index < b.code.length := by
  intro instruction mem target hit
  have only : target ∈ p.instructions.flatMap Instruction.targets :=
    List.mem_flatMap.mpr ⟨instruction, mem, hit⟩
  rw [Preamble.flatMap_targets_of_build built, List.mem_singleton] at only
  rw [only]
  exact wf.first_lt starts

/-- **The preamble of a method can always be spliced into its body**, since it branches to nothing but
the first instruction. -/
theorem WellFormed.splice_of_build (wf : b.WellFormed) {first : Handle}
    (starts : b.first? = some first) {t : MethodTarget} {registry : PatchRegistry}
    (built : Preamble.build t registry first = .ok p) :
    b.splice p
      = ({ b with
            maxStack := max b.maxStack p.maxStack
            code := enlist b.code.length p.instructions ++ b.code },
          .ok ⟨⟨b.code.length⟩, first, p.instructions.length⟩) := by
  have shape := (Preamble.build_eq_ok_iff.mp built).2
  have resumes : p.resume = first := by rw [shape]
  have some_code : p.instructions ≠ [] := by
    rw [shape, Preamble.ask]
    exact List.cons_ne_nil _ _
  have grounded := grounded_of_forall (wf.targets_lt_of_build starts built)
  rw [← resumes] at starts
  rw [splice_of_grounded starts grounded, if_neg some_code, if_neg some_code, resumes]

end Body

end Hotpatch
