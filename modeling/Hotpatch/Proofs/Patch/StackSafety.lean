import Hotpatch.Proofs.Execution.StackDepth
import Hotpatch.Proofs.Patch.Prepending

/-! # Stacks of patched methods

A preamble in front of a stack-safe body leaves it stack-safe.

* **`carries_of_build`** — executed one after the other, the instructions of a preamble find their
  operands, and leave what its method returns.
* **`room_of_build`** — on the way the stack is never deeper than the preamble declares.
* **`fallsThrough_iff_of_build`**, **`position_of_target`** — control goes through a preamble from the
  first instruction to the last, and may only leave it at the branch.
* **`reaches_prepend_iff`** — the standings that are reached in a patched body.
* **`stackSafe_splice`** — the stacks of the patched body, and how control passes through the
  preamble. -/

namespace Hotpatch

open Instruction (Carries depthAlong depthAfter)

/-- The **results** of a method: how many values it leaves on the stack when it returns. -/
def MethodTarget.results (t : MethodTarget) : Nat :=
  if t.returnType.isVoid then 0 else 1

namespace Preamble

variable {t : MethodTarget} {registry : PatchRegistry} {resume : Handle} {p : Preamble}

/-! ## (1) Depths of a preamble

There are never more than six values on the stack: the two names, the array and a copy of it, and an
index with the argument that is stored there. -/

/-- The question for a patch takes two values and gives one. -/
theorem effect_hasPatch (valid : registry.validate = .ok ()) :
    Instruction.invokeEffect .call registry.hasPatch = ⟨2, 1⟩ := by
  rw [Instruction.invokeEffect, (PatchRegistry.validate_eq_ok_iff.mp valid).1]
  · rfl
  · exact nofun

/-- Running a patch takes three values and gives one. -/
theorem effect_callPatch (valid : registry.validate = .ok ()) :
    Instruction.invokeEffect .call registry.callPatch = ⟨3, 1⟩ := by
  rw [Instruction.invokeEffect, (PatchRegistry.validate_eq_ok_iff.mp valid).2]
  · rfl
  · exact nofun

/-- **Asking** leaves an empty stack: two names are turned into an answer, which the branch takes. -/
theorem carries_ask (valid : registry.validate = .ok ()) :
    Carries 6 (ask t registry resume) 0 0 := by
  simp [ask, keys, Carries, depthAfter, Instruction.effect, effect_hasPatch valid,
    Condition.operands]

/-- **Storing an argument** leaves the array where it is, above the two names. -/
theorem carries_storeArgument (index : Nat) (slot : UInt16) (type : TypeSig) :
    Carries 6 (storeArgument index slot type) 3 3 := by
  rw [storeArgument]
  split <;> simp [Carries, depthAfter, Instruction.effect, PlainOp.effect, SlotOp.effect]

/-- **Packing arguments** leaves the array where it is, however many there are. -/
theorem carries_pack (parameters : List (TypeSig × Nat)) : Carries 6 (pack t parameters) 3 3 := by
  induction parameters with
  | nil => rfl
  | cons parameter rest ih =>
    rw [pack, List.flatMap_cons]
    exact (carries_storeArgument _ _ _).append ih

/-- **Leaving** turns the value of the patch into the results of the method. -/
theorem carries_leave (valid : registry.validate = .ok ()) :
    Carries 6 (leave t registry) 1 t.results := by
  rw [leave, PatchRegistry.returnsValue_eq_true valid, MethodTarget.results]
  cases t.returnType.isVoid <;>
    simp [Carries, depthAfter, Instruction.effect, PlainOp.effect]

/-- **Dispatching** leaves the results of the method. -/
theorem carries_dispatch (valid : registry.validate = .ok ()) :
    Carries 6 (dispatch t registry) 0 t.results := by
  have array : Carries 6 (keys t ++ [.ldcI4 (Int32.ofNat t.parameters.length),
      .typed .newarr .object]) 0 3 := by
    simp [keys, Carries, depthAfter, Instruction.effect]
  have call : Carries 6 [(.invoke .call registry.callPatch : Instruction Handle)] 3 1 := by
    simp [Carries, depthAfter, Instruction.effect, effect_callPatch valid]
  exact ((array.append (carries_pack _)).append call).append (carries_leave valid)

/-- **Executed one after the other**, the instructions of a preamble find their operands, and the last
one leaves the results of the method. -/
theorem carries_of_build (valid : registry.validate = .ok ())
    (built : build t registry resume = .ok p) : Carries 6 p.instructions 0 t.results := by
  rw [(build_eq_ok_iff.mp built).2]
  exact (carries_ask valid).append (carries_dispatch valid)

/-! ## (2) The declared depth -/

/-- The depth that `deepen` keeps track of is the one after the instruction. -/
@[simp] theorem fst_foldl_deepen (instructions : List (Instruction Handle)) (depths : Nat × Nat) :
    (instructions.foldl deepen depths).1 = instructions.foldl depthAfter depths.1 := by
  induction instructions generalizing depths with
  | nil => rfl
  | cons i rest ih => exact ih _

/-- The deepest stack so far is no less deep than the one before, nor than the present one. -/
theorem le_snd_foldl_deepen (instructions : List (Instruction Handle)) {depths : Nat × Nat}
    (low : depths.1 ≤ depths.2) :
    depths.2 ≤ (instructions.foldl deepen depths).2
      ∧ (instructions.foldl deepen depths).1 ≤ (instructions.foldl deepen depths).2 := by
  induction instructions generalizing depths with
  | nil => exact ⟨Nat.le_refl _, low⟩
  | cons i rest ih =>
    have low : (deepen depths i).1 ≤ (deepen depths i).2 := Nat.le_max_right _ _
    obtain ⟨later, present⟩ := ih low
    exact ⟨(Nat.le_max_left _ _).trans later, present⟩

/-- **What a preamble declares** is no less deep than the stack at any position, unless that is deeper
than can be declared. -/
theorem depthAlong_le_deepest (instructions : List (Instruction Handle)) (position : Nat)
    (declarable : depthAlong 0 instructions position ≤ 65535) :
    depthAlong 0 instructions position ≤ (deepest instructions).toNat := by
  -- The deepest stack of the whole is that of the front, or deeper.
  have front := (le_snd_foldl_deepen (instructions.take position) (Nat.le_refl (0, 0).1)).2
  have whole := (le_snd_foldl_deepen (instructions.drop position) front).1
  rw [← List.foldl_append, List.take_append_drop] at whole
  have below : depthAlong 0 instructions position ≤ (instructions.foldl deepen (0, 0)).2 := by
    rw [depthAlong, ← fst_foldl_deepen _ (0, 0)]
    exact front.trans whole
  rw [deepest, UInt16.toNat_ofNat']
  omega

/-- The depth of the stack **before** the instruction of a preamble at a position. -/
def depthBefore (p : Preamble) (position : Nat) : Nat :=
  depthAlong 0 p.instructions position

section Built

variable (built : build t registry resume = .ok p) {position : Nat} {i : Instruction Handle}

include built

/-- **Operands and room** for every instruction of a preamble. -/
theorem room_of_build (valid : registry.validate = .ok ())
    (here : p.instructions[position]? = some i) :
    i.effect.pops ≤ p.depthBefore position
      ∧ depthAfter (p.depthBefore position) i ≤ p.maxStack.toNat := by
  obtain ⟨operands, small⟩ := (carries_of_build valid built).at_position here
  refine ⟨operands, ?_⟩
  have declared := depthAlong_le_deepest p.instructions (position + 1) (by omega)
  rw [Instruction.depthAlong_succ here] at declared
  obtain ⟨-, shape⟩ := build_eq_ok_iff.mp built
  rw [shape] at declared ⊢
  exact declared

/-- Behind the branch the stack is empty. -/
theorem depthBefore_four (valid : registry.validate = .ok ()) : p.depthBefore 4 = 0 := by
  have asked : depthAlong 0 (ask t registry resume) 4 = 0 := (carries_ask valid).depthAlong_length
  rw [depthBefore, (build_eq_ok_iff.mp built).2]
  exact (Instruction.depthAlong_append_left (Nat.le_refl 4)).trans asked

/-! ## (3) Control in a preamble -/

/-- **Control goes on** behind every instruction of a preamble but the last one. -/
theorem fallsThrough_iff_of_build (here : p.instructions[position]? = some i) :
    i.fallsThrough = true ↔ position + 1 < p.instructions.length := by
  obtain ⟨front, shape, goesOn⟩ := exists_front_of_build built
  rw [shape, List.getElem?_append] at here
  rw [shape, List.length_append, List.length_singleton]
  split at here
  case isTrue inside => exact iff_of_true (goesOn i (List.mem_of_getElem? here)) (by omega)
  case isFalse outside =>
    have last : i = .plain .ret := List.mem_singleton.mp (List.mem_of_getElem? here)
    exact iff_of_false (by rw [last]; decide) (by omega)

/-- **The last instruction** of a preamble is its only `ret`. -/
theorem getElem?_eq_ret_iff : p.instructions[position]? = some (.plain .ret)
    ↔ position + 1 = p.instructions.length := by
  constructor
  · intro here
    have last : ¬ position + 1 < p.instructions.length := fun inside => by
      cases (fallsThrough_iff_of_build built here).mpr inside
    have bound := (List.getElem?_eq_some_iff.mp here).1
    omega
  · intro last
    obtain ⟨front, shape, -⟩ := exists_front_of_build built
    rw [shape, List.length_append, List.length_singleton] at last
    obtain rfl : position = front.length := by omega
    rw [shape, List.getElem?_concat_length]

/-- **The last instruction** finds the results of the method on the stack. -/
theorem depthBefore_ret (valid : registry.validate = .ok ())
    (here : p.instructions[position]? = some (.plain .ret)) :
    p.depthBefore position = t.results := by
  have final := (carries_of_build valid built).depthAlong_length
  -- `ret` itself is counted as taking nothing.
  rw [← (getElem?_eq_ret_iff built).mp here, Instruction.depthAlong_succ here] at final
  exact final

/-- **Control may branch** only at the fourth instruction, and to where the method goes on. -/
theorem position_of_target (here : p.instructions[position]? = some i) {target : Handle}
    (hit : target ∈ i.targets) : position = 3 ∧ target = resume := by
  rw [instructions_of_build built] at here
  rcases Nat.lt_trichotomy position 3 with asking | rfl | dispatching
  · rw [List.getElem?_append_left asking] at here
    have mem := List.mem_of_getElem? here
    simp [keys] at mem
    rcases mem with rfl | rfl | rfl <;> cases hit
  · obtain rfl : .branch .long .isFalse resume = i := Option.some.inj here
    exact ⟨rfl, List.mem_singleton.mp hit⟩
  · obtain ⟨behind, rfl⟩ := Nat.exists_eq_add_of_lt dispatching
    have asking : (keys t ++ [Instruction.invoke .call registry.hasPatch]).length = 3 := rfl
    have index : 3 + behind + 1 - 3 = behind + 1 := by omega
    rw [List.getElem?_append_right (by omega), asking, index, List.getElem?_cons_succ] at here
    have noTargets := List.flatMap_eq_nil_iff.mp (flatMap_targets_dispatch t registry) i
      (List.mem_of_getElem? here)
    rw [noTargets] at hit
    cases hit

end Built

end Preamble

namespace Body

variable {b : Body} {t : MethodTarget} {registry : PatchRegistry} {first : Handle} {p : Preamble}
  {position : Nat} {s s' : Standing}

/-! ## (4) Paths through a patched body -/

/-- A body with a preamble in front starts with the preamble. -/
theorem first?_prepend (some_code : 0 < p.instructions.length) :
    (b.prepend p).first? = some ⟨b.code.length⟩ := by
  rw [first?, List.head?_eq_getElem?]
  exact handleAt?_of_enlist_append rfl some_code

section Prepended

variable (wf : b.WellFormed)

include wf

/-- The handles of a body with a preamble in front are distinct. -/
theorem WellFormed.distinct_prepend (p : Preamble) : (b.prepend p).Distinct :=
  wf.distinct_enlist_append rfl

/-- The instructions of the preamble have the handles behind those of the body. -/
theorem WellFormed.instruction?_prepend {i : Instruction Handle}
    (here : p.instructions[position]? = some i) :
    (b.prepend p).instruction? ⟨b.code.length + position⟩ = some i := by
  have bound := (List.getElem?_eq_some_iff.mp here).1
  have placed : (b.prepend p).code[position]? = some ⟨⟨b.code.length + position⟩, 0, i⟩ := by
    rw [Body.prepend, List.getElem?_append_left (by rwa [length_enlist]), getElem?_enlist, here,
      Option.map_some]
  exact instruction?_of_getElem? (wf.distinct_prepend p) placed

/-- Behind an instruction of the preamble comes the next one of the preamble. -/
theorem WellFormed.follower?_prepend (inside : position + 1 < p.instructions.length) :
    (b.prepend p).follower? ⟨b.code.length + position⟩ = some ⟨b.code.length + (position + 1)⟩ := by
  have here := handleAt?_of_enlist_append (c := b.prepend p) rfl (Nat.lt_of_succ_lt inside)
  rw [follower?, (position?_eq_some_iff (wf.distinct_prepend p)).mpr here, Option.bind_some]
  exact handleAt?_of_enlist_append rfl inside

/-- What stands under a handle behind those of the body is an instruction of the preamble. -/
theorem WellFormed.exists_of_instruction?_prepend {handle : Handle} {i : Instruction Handle}
    (new : b.code.length ≤ handle.index) (here : (b.prepend p).instruction? handle = some i) :
    ∃ position, handle = ⟨b.code.length + position⟩ ∧ p.instructions[position]? = some i := by
  obtain ⟨placed, found, rfl⟩ := Option.map_eq_some_iff.mp here
  obtain ⟨mem, rfl⟩ := (find?_eq_some_iff (wf.distinct_prepend p)).mp found
  rcases List.mem_append.mp mem with front | behind
  · obtain ⟨position, at_position⟩ := List.mem_iff_getElem?.mp front
    rw [getElem?_enlist] at at_position
    obtain ⟨i, there, rfl⟩ := Option.map_eq_some_iff.mp at_position
    exact ⟨position, rfl, there⟩
  · exact absurd (wf.handle_lt behind) (Nat.not_lt.mpr new)

variable (starts : b.first? = some first) (valid : registry.validate = .ok ())
  (built : Preamble.build t registry first = .ok p)

include valid built

/-- **Control flows through a preamble** from each instruction to the next, and from the fourth to the
old first instruction, where it arrives with an empty stack. -/
theorem WellFormed.flows_preamble_iff (inside : position < p.instructions.length) :
    (b.prepend p).Flows ⟨⟨b.code.length + position⟩, p.depthBefore position⟩ s'
      ↔ (position + 1 < p.instructions.length
          ∧ s' = ⟨⟨b.code.length + (position + 1)⟩, p.depthBefore (position + 1)⟩)
        ∨ (position = 3 ∧ s' = ⟨first, 0⟩) := by
  obtain ⟨i, here⟩ : ∃ i, p.instructions[position]? = some i :=
    ⟨_, List.getElem?_eq_getElem inside⟩
  have instruction := wf.instruction?_prepend here
  have after : p.depthBefore (position + 1) = depthAfter (p.depthBefore position) i :=
    Instruction.depthAlong_succ here
  constructor
  · intro flows
    cases flows with
    | falls found falls behind =>
      obtain rfl := Option.some.inj (instruction.symm.trans found)
      have goesOn := (Preamble.fallsThrough_iff_of_build built here).mp falls
      obtain rfl := Option.some.inj ((wf.follower?_prepend goesOn).symm.trans behind)
      exact .inl ⟨goesOn, by rw [after]⟩
    | jumps found hit =>
      obtain rfl := Option.some.inj (instruction.symm.trans found)
      obtain ⟨rfl, rfl⟩ := Preamble.position_of_target built here hit
      exact .inr ⟨rfl, by rw [← after, Preamble.depthBefore_four built valid]⟩
  · rintro (⟨goesOn, rfl⟩ | ⟨rfl, rfl⟩)
    · rw [after]
      exact .falls instruction ((Preamble.fallsThrough_iff_of_build built here).mpr goesOn)
        (wf.follower?_prepend goesOn)
    · have branch : i = .branch .long .isFalse first := by
        rw [Preamble.instructions_of_build built] at here
        exact (Option.some.inj here).symm
      rw [← Preamble.depthBefore_four built valid, after]
      exact .jumps instruction (by rw [branch]; exact List.mem_singleton_self first)

/-- **Every instruction of a preamble is reached**, with its depth in the preamble. -/
theorem WellFormed.reaches_preamble (inside : position < p.instructions.length) :
    (b.prepend p).Reaches ⟨⟨b.code.length + position⟩, p.depthBefore position⟩ := by
  induction position with
  | zero => exact .start (first?_prepend inside)
  | succ position ih =>
    have before := Nat.lt_of_succ_lt inside
    exact (ih before).flow ((wf.flows_preamble_iff valid built before).mpr (.inl ⟨inside, rfl⟩))

include starts

/-- **The standings that are reached in a patched body** are those in the preamble with the depths of
the preamble, and those reached in the body. -/
theorem WellFormed.reaches_prepend_iff :
    (b.prepend p).Reaches s
      ↔ (∃ position < p.instructions.length,
          s = ⟨⟨b.code.length + position⟩, p.depthBefore position⟩)
        ∨ b.Reaches s := by
  have four : 4 ≤ p.instructions.length := by
    rw [Preamble.instructions_of_build built]
    simp [Preamble.keys]
  have flows_old {s s' : Standing} (reached : b.Reaches s) :
      (b.prepend p).Flows s s' ↔ b.Flows s s' :=
    flows_behind_iff wf (wf.distinct_prepend p) rfl (reached.inside wf)
  constructor
  · intro reached
    induction reached with
    | start starts_new =>
      rw [first?_prepend (by omega)] at starts_new
      obtain rfl := Option.some.inj starts_new
      exact .inl ⟨0, by omega, rfl⟩
    | flow _ flows ih =>
      rcases ih with ⟨position, inside, rfl⟩ | old
      · rcases (wf.flows_preamble_iff valid built inside).mp flows with ⟨goesOn, rfl⟩ | ⟨-, rfl⟩
        · exact .inl ⟨position + 1, goesOn, rfl⟩
        · exact .inr (.start starts)
      · exact .inr (old.flow ((flows_old old).mp flows))
  · rintro (⟨position, inside, rfl⟩ | old)
    · exact wf.reaches_preamble valid built inside
    · induction old with
      | start starts_old =>
        obtain rfl := Option.some.inj (starts.symm.trans starts_old)
        exact (wf.reaches_preamble valid built four).flow
          ((wf.flows_preamble_iff valid built four).mpr (.inr ⟨rfl, rfl⟩))
      | flow old flows ih => exact ih.flow ((flows_old old).mpr flows)

/-- **A preamble keeps a body stack-safe.** -/
theorem StackSafe.prepend (safe : b.StackSafe) : (b.prepend p).StackSafe := by
  have declared : (b.prepend p).maxStack.toNat = max b.maxStack.toNat p.maxStack.toNat :=
    UInt16.toNat_max _ _
  have each (s : Standing) (reached : (b.prepend p).Reaches s) (i : Instruction Handle)
      (here : (b.prepend p).instruction? s.handle = some i) :
      i.effect.pops ≤ s.depth ∧ i.depthAfter s.depth ≤ (b.prepend p).maxStack.toNat := by
    rw [declared]
    rcases (wf.reaches_prepend_iff starts valid built).mp reached with ⟨position, inside, rfl⟩ | old
    · have there : p.instructions[position]? = some i := by
        have at_position := List.getElem?_eq_getElem inside
        rw [at_position, ← wf.instruction?_prepend at_position]
        exact here
      obtain ⟨operands, room⟩ := Preamble.room_of_build built valid there
      exact ⟨operands, room.trans (Nat.le_max_right _ _)⟩
    · rw [Machine.instruction?_behind wf (wf.distinct_prepend p) rfl (old.inside wf)] at here
      exact ⟨safe.operands s old i here, (safe.room s old i here).trans (Nat.le_max_left _ _)⟩
  exact ⟨fun s reached i here => (each s reached i here).1,
    fun s reached i here => (each s reached i here).2⟩

end Prepended

/-- **Splicing preserves stack safety.** Take a well-formed, stack-safe body with a first instruction,
a valid registry, and the preamble that was built for the method. The splice succeeds, and the body it
leaves is stack-safe: on no path, however long, an operand is missing or the declared depth is
exceeded. Paths that leave the preamble enter the old code at its first instruction, with an empty
stack. The preamble has one `ret`; paths lead there, and always with one value on the stack, or with
none if the method returns nothing. -/
theorem stackSafe_splice (wf : b.WellFormed) (safe : b.StackSafe) (starts : b.first? = some first)
    (valid : registry.validate = .ok ()) (built : Preamble.build t registry first = .ok p) :
    b.splice p = (b.prepend p, .ok ⟨⟨b.code.length⟩, first, p.instructions.length⟩)
      ∧ (b.prepend p).StackSafe
      ∧ (∀ s s', (b.prepend p).Reaches s → b.code.length ≤ s.handle.index →
          (b.prepend p).Flows s s' → s'.handle.index < b.code.length → s' = ⟨first, 0⟩)
      ∧ ∃ way : Handle, b.code.length ≤ way.index
        ∧ (∀ handle : Handle, b.code.length ≤ handle.index →
            ((b.prepend p).instruction? handle = some (.plain .ret) ↔ handle = way))
        ∧ ∀ depth, (b.prepend p).Reaches ⟨way, depth⟩
            ↔ depth = if t.returnType.isVoid then 0 else 1 := by
  refine ⟨wf.splice_eq_prepend starts built, safe.prepend wf starts valid built, ?_, ?_⟩
  · intro s s' reached new flows old
    rcases (wf.reaches_prepend_iff starts valid built).mp reached with ⟨position, inside, rfl⟩ | inOld
    · rcases (wf.flows_preamble_iff valid built inside).mp flows with ⟨-, rfl⟩ | ⟨-, rfl⟩
      · exact absurd old (Nat.not_lt.mpr (Nat.le_add_right _ _))
      · rfl
    · exact absurd (inOld.inside wf) (Nat.not_lt.mpr new)
  · -- The last instruction is the only `ret`, and its handle is the last one.
    obtain ⟨front, shape, -⟩ := Preamble.exists_front_of_build built
    have last : p.instructions[front.length]? = some (.plain .ret) := by
      rw [shape, List.getElem?_concat_length]
    refine ⟨⟨b.code.length + front.length⟩, Nat.le_add_right _ _, fun handle new => ?_, fun depth => ?_⟩
    · constructor
      · intro here
        obtain ⟨position, rfl, there⟩ := wf.exists_of_instruction?_prepend new here
        have same := ((Preamble.getElem?_eq_ret_iff built).mp there).trans
          ((Preamble.getElem?_eq_ret_iff built).mp last).symm
        rw [Nat.succ.inj same]
      · rintro rfl
        exact wf.instruction?_prepend last
    · rw [← MethodTarget.results, ← Preamble.depthBefore_ret built valid last,
        wf.reaches_prepend_iff starts valid built]
      constructor
      · rintro (⟨position, -, same⟩ | old)
        · obtain ⟨handle, rfl⟩ := Standing.mk.inj same
          rw [Nat.add_left_cancel (Handle.mk.inj handle)]
        · exact absurd (old.inside wf) (by simp)
      · rintro rfl
        exact .inl ⟨front.length, (List.getElem?_eq_some_iff.mp last).1, rfl⟩

/-- A body that **turns** back to its first instruction as often as it is told to. The stack that it
declares is less deep than that of its preamble. -/
def dial : Body :=
  { Body.empty with
    maxStack := 1
    code := [⟨⟨1⟩, 0, .slot .ldarg 0⟩, ⟨⟨0⟩, 1, .switch [⟨1⟩, ⟨3⟩]⟩,
      ⟨⟨2⟩, 14, .branch .short .always ⟨1⟩⟩, ⟨⟨3⟩, 16, .ldcI4 7⟩, ⟨⟨4⟩, 17, .plain .ret⟩] }

/-- The dial is stack-safe: one value before the switch and before the end, and none elsewhere. -/
theorem stackSafe_dial (wf : dial.WellFormed) : dial.StackSafe :=
  stackSafe_of_depths wf.distinct (fun handle => if handle.index ∈ [0, 4] then 1 else 0)
    (by decide) (by decide)

/-- The dial with its preamble turns on with an empty stack, and returns one value. -/
theorem stackSafe_splice_dial :
    dial.WellFormed ∧ dial.StackSafe ∧ dial.first? = some ⟨1⟩
      ∧ (PatchRegistry.standard "Hotfix" "Registry").validate = .ok () ∧ ∃ p,
        Preamble.build ⟨"Dial", "Turn", [.bool], false, .object⟩ (.standard "Hotfix" "Registry") ⟨1⟩
          = .ok p
        ∧ (dial.splice p).1.StackSafe
        ∧ ∃ way : Handle, (dial.splice p).1.instruction? way = some (.plain .ret)
          ∧ 5 ≤ way.index ∧ ∀ depth, (dial.splice p).1.Reaches ⟨way, depth⟩ ↔ depth = 1 := by
  have wf : dial.WellFormed := ⟨by decide, by decide⟩
  have safe := stackSafe_dial wf
  have valid : (PatchRegistry.standard "Hotfix" "Registry").validate = .ok () :=
    PatchRegistry.validate_eq_ok_iff.mpr ⟨rfl, rfl⟩
  let turn : MethodTarget := ⟨"Dial", "Turn", [.bool], false, .object⟩
  have built : Preamble.build turn (.standard "Hotfix" "Registry") ⟨1⟩ = .ok _ :=
    Preamble.build_eq_ok_iff.mpr ⟨by decide, rfl⟩
  obtain ⟨spliced, patched, -, way, new, only, reached⟩ := stackSafe_splice wf safe rfl valid built
  refine ⟨wf, safe, rfl, valid, _, built, ?_⟩
  rw [spliced]
  exact ⟨patched, way, (only way new).mpr rfl, new, reached⟩

end Body

end Hotpatch
