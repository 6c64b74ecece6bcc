import Hotpatch.Proofs.Execution.Reference
import Hotpatch.Proofs.Execution.Transparency

/-! # Methods with a patch

On the reference machine a method whose registry has a patch calls it once, on an array of its
arguments, and returns what comes out of its result.

* **`Value.boxedAs`** — an argument as an element of the array.
* **`MethodTarget.packed`** — the array of the arguments.
* **`line_pack`** — the instructions that pack the arguments fill the array from the front; this is
  the invariant of the loop over the parameters.
* **`run_of_hasPatch`** — the run of a body that starts with a preamble, from the first instruction to
  the exit. -/

namespace Hotpatch

variable {O W : Type}

/-- A value **boxed as** a type, if the type is a value type. -/
def Value.boxedAs (type : TypeSig) (value : Value O) : Value O :=
  if type.isValueType then .boxed type value else value

/-- Numbered parameters **packed** as the elements of an array: the argument in the slot of each one,
boxed as its type. -/
def MethodTarget.packed (t : MethodTarget) (arguments : List (Value O))
    (parameters : List (TypeSig × Nat)) : List (Value O) :=
  parameters.map fun parameter =>
    (arguments[t.slot parameter.2]?.getD .null).boxedAs parameter.1

namespace Runtime

open Machine

variable {R : Runtime O W} {registry : PatchRegistry} {t : MethodTarget}
variable {stack arguments locals : List (Value O)} {store : Store O W}
variable {calls : List (RegistryCall O)}

/-! ## (1) Asking -/

/-- The keys are pushed, the name of the method on top. -/
@[simp] theorem line_keys :
    (R.machine registry).line (Preamble.keys t) ⟨stack, arguments, locals, ⟨store, calls⟩⟩
      = some ⟨.text t.methodName :: .text t.typeName :: stack, arguments, locals,
          ⟨store, calls⟩⟩ := rfl

/-- Asking the registry takes the keys, notes the call, and pushes the answer. -/
@[simp] theorem act_hasPatch (typeName methodName : String) :
    (R.machine registry).act (.invoke .call registry.hasPatch)
        ⟨.text methodName :: .text typeName :: stack, arguments, locals, ⟨store, calls⟩⟩
      = (.next, ⟨.int (if (R.hasPatch typeName methodName store).1 then 1 else 0) :: stack, arguments,
          locals, ⟨(R.hasPatch typeName methodName store).2,
            calls ++ [.hasPatch typeName methodName]⟩⟩) := by
  refine act_invoke ?_
  rw [callRegistry, if_pos rfl]

/-- **Asking with success**: the instructions that ask for a patch pass control on, over the branch,
if there is one. -/
theorem line_ask (patched : (R.hasPatch t.typeName t.methodName store).1 = true)
    (resume : Handle) :
    (R.machine registry).line (Preamble.ask t registry resume)
        ⟨stack, arguments, locals, ⟨store, calls⟩⟩
      = some ⟨stack, arguments, locals, ⟨(R.hasPatch t.typeName t.methodName store).2,
          calls ++ [.hasPatch t.typeName t.methodName]⟩⟩ := by
  rw [Preamble.ask, line_append, line_keys, Option.bind_some,
    line_cons _ (act_hasPatch t.typeName t.methodName), patched]
  rfl

/-! ## (2) Packing -/

/-- The array that is being filled: its address is the number of arrays before it. -/
theorem write_fresh {arrays : List (List (Value O))} {outside : W} {filled rest : List (Value O)}
    {old value : Value O} :
    Store.write ⟨arrays ++ [filled ++ old :: rest], outside⟩ arrays.length filled.length value
      = some ⟨arrays ++ [filled ++ value :: rest], outside⟩ := by
  simp only [Store.write, List.getElem?_append_right (Nat.le_refl _), Nat.sub_self,
    List.getElem?_cons_zero, Option.bind_some, List.length_append, List.length_cons]
  rw [if_pos (by omega), List.set_append_right _ _ (Nat.le_refl _), Nat.sub_self, List.set_cons_zero,
    List.set_append_right _ _ (Nat.le_refl _), Nat.sub_self, List.set_cons_zero]

/-- Loading the argument in a slot that there is. -/
theorem act_ldarg {slot : Nat} {argument : Value O} (fits : slot < 65536)
    (here : arguments[slot]? = some argument) {surroundings : Surroundings O W} :
    (R.machine registry).act (.slot .ldarg (.ofNat slot)) ⟨stack, arguments, locals, surroundings⟩
      = (.next, ⟨argument :: stack, arguments, locals, surroundings⟩) := by
  refine act_of_act? ?_
  show (arguments[(UInt16.ofNat slot).toNat]?).bind _ = _
  rw [UInt16.toNat_ofNat_of_lt' (show slot < UInt16.size from fits), here, Option.bind_some]

/-- Storing a value behind the elements filled in so far. -/
theorem act_stelemRef {arrays : List (List (Value O))} {outside : W} {filled rest : List (Value O)}
    {old value : Value O} (small : filled.length < 65536) :
    (R.machine registry).act (.plain .stelemRef)
        ⟨value :: .int (.ofNat filled.length) :: .array arrays.length :: stack, arguments, locals,
          ⟨⟨arrays ++ [filled ++ old :: rest], outside⟩, calls⟩⟩
      = (.next, ⟨stack, arguments, locals,
          ⟨⟨arrays ++ [filled ++ value :: rest], outside⟩, calls⟩⟩) := by
  have index : (Int32.ofNat filled.length).toInt = filled.length :=
    Int32.toInt_ofNat_of_lt (by omega)
  refine act_of_act? ?_
  show (if 0 ≤ (Int32.ofNat filled.length).toInt then _ else none) = _
  rw [index, if_pos (Int.natCast_nonneg _), Int.toNat_natCast, write_fresh, Option.map_some]

/-- **Storing one argument** writes it, boxed as its type, behind the elements filled in so far. -/
theorem line_storeArgument {arrays : List (List (Value O))} {outside : W}
    {filled rest : List (Value O)} {old argument : Value O} {slot : Nat} (type : TypeSig)
    (small : filled.length < 65536) (fits : slot < 65536)
    (here : arguments[slot]? = some argument) :
    (R.machine registry).line (Preamble.storeArgument filled.length (.ofNat slot) type)
        ⟨.array arrays.length :: stack, arguments, locals,
          ⟨⟨arrays ++ [filled ++ old :: rest], outside⟩, calls⟩⟩
      = some ⟨.array arrays.length :: stack, arguments, locals,
          ⟨⟨arrays ++ [filled ++ argument.boxedAs type :: rest], outside⟩, calls⟩⟩ := by
  have dup (value : Value O) (surroundings : Surroundings O W) :
      (R.machine registry).act (.plain .dup) ⟨value :: stack, arguments, locals, surroundings⟩
        = (.next, ⟨value :: value :: stack, arguments, locals, surroundings⟩) := rfl
  have number (value : Int32) (below : List (Value O)) (surroundings : Surroundings O W) :
      (R.machine registry).act (.ldcI4 value) ⟨below, arguments, locals, surroundings⟩
        = (.next, ⟨.int value :: below, arguments, locals, surroundings⟩) := rfl
  have box (value : Value O) (below : List (Value O)) (surroundings : Surroundings O W) :
      (R.machine registry).act (.typed .box type) ⟨value :: below, arguments, locals, surroundings⟩
        = (.next, ⟨.boxed type value :: below, arguments, locals, surroundings⟩) := rfl
  -- Boxing is one instruction more, between loading the argument and writing it.
  by_cases boxes : type.isValueType
  · rw [Value.boxedAs, if_pos boxes, Preamble.storeArgument, if_pos boxes]
    simp only [List.cons_append, List.nil_append]
    rw [line_cons _ (dup _ _), line_cons _ (number _ _ _), line_cons _ (act_ldarg fits here),
      line_cons _ (box _ _ _), line_cons _ (act_stelemRef small), line]
  · rw [Value.boxedAs, if_neg boxes, Preamble.storeArgument, if_neg boxes]
    simp only [List.cons_append, List.nil_append]
    rw [line_cons _ (dup _ _), line_cons _ (number _ _ _), line_cons _ (act_ldarg fits here),
      line_cons _ (act_stelemRef small), line]

/-- **Packing the arguments** fills the array behind the elements filled in so far, which is the
invariant of the loop over the parameters. -/
theorem line_pack {arrays : List (List (Value O))} {outside : W} {filled : List (Value O)}
    (types : List TypeSig)
    (slots : ∀ index < filled.length + types.length,
      t.slot index < 65536 ∧ t.slot index < arguments.length) :
    (R.machine registry).line (Preamble.pack t (types.zipIdx filled.length))
        ⟨.array arrays.length :: stack, arguments, locals,
          ⟨⟨arrays ++ [filled ++ List.replicate types.length .null], outside⟩, calls⟩⟩
      = some ⟨.array arrays.length :: stack, arguments, locals,
          ⟨⟨arrays ++ [filled ++ t.packed arguments (types.zipIdx filled.length)], outside⟩,
            calls⟩⟩ := by
  induction types generalizing filled with
  | nil => rfl
  | cons type types ih =>
    obtain ⟨fits, present⟩ := slots filled.length (by simp)
    -- A slot that fits into a word bounds the index, too, as it is never before it.
    have small : filled.length < 65536 := (t.le_slot filled.length).trans_lt fits
    have here : arguments[t.slot filled.length]? = some arguments[t.slot filled.length] :=
      List.getElem?_eq_getElem present
    -- Behind the element written now the array is filled one further.
    have shorter : ∀ index
        < (filled ++ [(arguments[t.slot filled.length]).boxedAs type]).length + types.length,
        t.slot index < 65536 ∧ t.slot index < arguments.length :=
      fun index bound => slots index (by simp at bound ⊢; omega)
    have others := ih shorter
    rw [List.length_append, List.length_singleton, List.append_assoc, List.append_assoc,
      List.singleton_append, List.singleton_append] at others
    rw [List.zipIdx_cons, Preamble.pack, List.flatMap_cons, ← Preamble.pack, line_append,
      List.length_cons, List.replicate_succ, line_storeArgument type small fits here,
      Option.bind_some, others, MethodTarget.packed, MethodTarget.packed, List.map_cons, here,
      Option.getD_some]

/-- A preamble that can be built has a slot within bounds for every parameter, once the arguments
fill the slots of the method. -/
theorem slot_bounds (fits : ∀ index < t.parameters.length, t.slot index < 65536)
    (filled : arguments.length = if t.isStatic then t.parameters.length else t.parameters.length + 1)
    {index : Nat} (bound : index < t.parameters.length) :
    t.slot index < 65536 ∧ t.slot index < arguments.length := by
  refine ⟨fits index bound, ?_⟩
  rw [filled, MethodTarget.slot]
  split <;> omega

/-- Making the array for some elements. -/
theorem act_newarr {count : Nat} {type : TypeSig} (small : count < 65537) :
    (R.machine registry).act (.typed .newarr type)
        ⟨.int (.ofNat count) :: stack, arguments, locals, ⟨store, calls⟩⟩
      = (.next, ⟨.array store.arrays.length :: stack, arguments, locals,
          ⟨store.allocate (List.replicate count .null), calls⟩⟩) := by
  have length : (Int32.ofNat count).toInt = count := Int32.toInt_ofNat_of_lt (by omega)
  refine act_of_act? ?_
  show (if 0 ≤ (Int32.ofNat count).toInt then _ else none) = _
  rw [length, if_pos (Int.natCast_nonneg _), Int.toNat_natCast]

/-- **Up to the call**: the keys and the array of all arguments are on the stack. -/
theorem line_arguments (fits : ∀ index < t.parameters.length, t.slot index < 65536)
    (filled : arguments.length
      = if t.isStatic then t.parameters.length else t.parameters.length + 1) :
    (R.machine registry).line
        (Preamble.keys t ++ [.ldcI4 (.ofNat t.parameters.length), .typed .newarr .object]
          ++ Preamble.pack t t.parameters.zipIdx) ⟨stack, arguments, locals, ⟨store, calls⟩⟩
      = some ⟨.array store.arrays.length :: .text t.methodName :: .text t.typeName :: stack,
          arguments, locals,
          ⟨store.allocate (t.packed arguments t.parameters.zipIdx), calls⟩⟩ := by
  -- With more parameters the last of them would have no slot.
  have small : t.parameters.length < 65537 := by
    by_contra large
    have := fits 65536 (by omega)
    have := t.le_slot 65536
    omega
  have number (value : Int32) (below : List (Value O)) :
      (R.machine registry).act (.ldcI4 value) ⟨below, arguments, locals, ⟨store, calls⟩⟩
        = (.next, ⟨.int value :: below, arguments, locals, ⟨store, calls⟩⟩) := rfl
  have bounds : ∀ index < ([] : List (Value O)).length + t.parameters.length,
      t.slot index < 65536 ∧ t.slot index < arguments.length :=
    fun index bound => slot_bounds fits filled (by simpa using bound)
  rw [line_append, line_append, line_keys, Option.bind_some, line_cons _ (number _ _),
    line_cons _ (act_newarr small), line, Option.bind_some]
  exact line_pack t.parameters bounds

/-! ## (3) Calling and leaving -/

/-- Running the patch takes the keys and the array, notes the call, and pushes the result. -/
theorem act_callPatch (valid : registry.validate = .ok ()) (typeName methodName : String)
    {address : Nat} {elements : List (Value O)} (here : store.arrays[address]? = some elements) :
    (R.machine registry).act (.invoke .call registry.callPatch)
        ⟨.array address :: .text methodName :: .text typeName :: stack, arguments, locals,
          ⟨store, calls⟩⟩
      = (.next, ⟨(R.callPatch typeName methodName address store).1 :: stack, arguments, locals,
          ⟨(R.callPatch typeName methodName address store).2,
            calls ++ [.callPatch typeName methodName elements]⟩⟩) := by
  have apart := PatchRegistry.callPatch_ne_hasPatch valid
  have returns := PatchRegistry.returnsValue_eq_true valid
  refine act_invoke ?_
  rw [callRegistry, if_neg apart, if_pos rfl]
  simp only [here, Option.map_some, returns, if_true]

/-- How a method **ends** once its patch gave a result: a method that returns nothing leaves an empty
stack, any other one the result unboxed as its return type, or it throws if that fails. -/
def ending (R : Runtime O W) (returnType : TypeSig) (result : Value O)
    (arguments locals : List (Value O)) (surroundings : Surroundings O W) :
    State (Value O) (Surroundings O W) :=
  if returnType.isVoid then .left .returned ⟨[], arguments, locals, surroundings⟩
  else
    match R.unbox returnType result surroundings.store with
    | some value => .left .returned ⟨[value], arguments, locals, surroundings⟩
    | none => .left .threw ⟨[result], arguments, locals, surroundings⟩

/-- Unboxing goes on with what came out, or throws. -/
theorem act_unboxAny (type : TypeSig) (value : Value O) (surroundings : Surroundings O W) :
    (R.machine registry).act (.typed .unboxAny type)
        ⟨value :: stack, arguments, locals, surroundings⟩
      = match R.unbox type value surroundings.store with
        | some content => (.next, ⟨content :: stack, arguments, locals, surroundings⟩)
        | none => (.leave .threw, ⟨value :: stack, arguments, locals, surroundings⟩) := by
  refine act_of_act? ?_
  show (match R.unbox type value surroundings.store with
    | some content => some _
    | none => some _) = _
  cases R.unbox type value surroundings.store <;> rfl

/-- **Leaving**: a body that starts with a line up to the result of the patch, and then leaves as a
preamble does, comes to its ending with the last of these instructions. -/
theorem run_leave (valid : registry.validate = .ok ()) {b : Body} (distinct : b.Distinct)
    {front : List (Instruction Handle)} {frame : Frame (Value O) (Surroundings O W)}
    (here : front ++ Preamble.leave t registry <+: b.code.map (·.instruction))
    {result : Value O} {surroundings : Surroundings O W}
    (runs : (R.machine registry).line front frame
      = some ⟨[result], arguments, locals, surroundings⟩) :
    (R.machine registry).run b (front ++ Preamble.leave t registry).length (start b frame)
      = R.ending t.returnType result arguments locals surroundings := by
  have ret (frame : Frame (Value O) (Surroundings O W)) :
      (R.machine registry).act (.plain .ret) frame = (.leave .returned, frame) := rfl
  rw [ending]
  -- The way out depends on the return type alone: drop the result, or unbox it.
  by_cases isVoid : t.returnType.isVoid
  · have leave : Preamble.leave t registry = [.plain .pop, .plain .ret] := by
      simp [Preamble.leave, isVoid, PatchRegistry.returnsValue_eq_true valid]
    have drops : (R.machine registry).line (front ++ [.plain .pop]) frame
        = some ⟨[], arguments, locals, surroundings⟩ := by
      rw [line_append, runs]
      rfl
    rw [leave, List.append_cons] at here ⊢
    rw [if_pos isVoid, ← run_line_leave distinct here drops (ret _) 0]
    rw [List.length_append, List.length_singleton, Nat.add_zero]
  · have leave : Preamble.leave t registry = [.typed .unboxAny t.returnType, .plain .ret] := by
      simp [Preamble.leave, isVoid]
    rw [leave] at here ⊢
    rw [if_neg isVoid]
    cases unboxed : R.unbox t.returnType result surroundings.store with
    | some value =>
      have act : (R.machine registry).act (.typed .unboxAny t.returnType)
          ⟨[result], arguments, locals, surroundings⟩
          = (.next, ⟨[value], arguments, locals, surroundings⟩) := by
        rw [act_unboxAny, unboxed]
      have unboxes : (R.machine registry).line (front ++ [.typed .unboxAny t.returnType]) frame
          = some ⟨[value], arguments, locals, surroundings⟩ := by
        rw [line_append, runs, Option.bind_some, line_cons _ act, line]
      rw [List.append_cons] at here ⊢
      simp only
      rw [← run_line_leave distinct here unboxes (ret _) 0]
      rw [List.length_append, List.length_singleton, Nat.add_zero]
    | none =>
      -- The cast failed: unboxing leaves the method, and the return is never reached.
      have act : (R.machine registry).act (.typed .unboxAny t.returnType)
          ⟨[result], arguments, locals, surroundings⟩
          = (.leave .threw, ⟨[result], arguments, locals, surroundings⟩) := by
        rw [act_unboxAny, unboxed]
      simp only
      rw [← run_line_leave distinct here runs act 1]
      rw [List.length_append, List.length_cons, List.length_singleton]

/-! ## (4) The whole preamble -/

/-- The elements of the packed array are the arguments, each in its place and boxed as its type. -/
theorem getElem?_packed
    (filled : arguments.length = if t.isStatic then t.parameters.length else t.parameters.length + 1)
    {index : Nat} {type : TypeSig} (here : t.parameters[index]? = some type) :
    ∃ argument, arguments[t.slot index]? = some argument
      ∧ (t.packed arguments t.parameters.zipIdx)[index]? = some (argument.boxedAs type) := by
  obtain ⟨bound, -⟩ := List.getElem?_eq_some_iff.mp here
  have present : t.slot index < arguments.length := by
    rw [filled, MethodTarget.slot]
    split <;> omega
  refine ⟨arguments[t.slot index], List.getElem?_eq_getElem present, ?_⟩
  rw [MethodTarget.packed, List.getElem?_map, List.getElem?_zipIdx, here, Option.map_some,
    Option.map_some, Nat.zero_add, List.getElem?_eq_getElem present, Option.getD_some]

/-- **Dispatch to a patch.** Take a body that starts with the preamble of a method, arguments for all
of the method's slots, and a registry that has a patch for it. The preamble asks the registry once and
runs the patch once, both under the names of the type and the method. The patch gets an array with one
element for each parameter: its argument, boxed exactly when its type is a value type. The method then
returns the result unboxed as its return type, or nothing if that is void. -/
theorem run_of_hasPatch (valid : registry.validate = .ok ()) {resume : Handle} {p : Preamble}
    (built : Preamble.build t registry resume = .ok p) {b : Body} (distinct : b.Distinct)
    (front : p.instructions <+: b.code.map (·.instruction))
    (filled : arguments.length = if t.isStatic then t.parameters.length else t.parameters.length + 1)
    (patched : (R.hasPatch t.typeName t.methodName store).1 = true) :
    ∃ elements : List (Value O),
      elements.length = t.parameters.length
      ∧ (∀ index type, t.parameters[index]? = some type →
        ∃ argument, arguments[if t.isStatic then index else index + 1]? = some argument
          ∧ elements[index]? = some (if type.isValueType then .boxed type argument else argument))
      ∧ let asked := (R.hasPatch t.typeName t.methodName store).2
        let called := R.callPatch t.typeName t.methodName asked.arrays.length (asked.allocate elements)
        (R.machine registry).run b p.instructions.length
            (start b (.fresh arguments locals ⟨store, calls⟩))
          = R.ending t.returnType called.1 arguments locals
              ⟨called.2, calls ++ [.hasPatch t.typeName t.methodName,
                .callPatch t.typeName t.methodName elements]⟩ := by
  obtain ⟨fits, rfl⟩ := Preamble.build_eq_ok_iff.mp built
  refine ⟨t.packed arguments t.parameters.zipIdx, by simp [MethodTarget.packed],
    fun index type here => getElem?_packed filled here, ?_⟩
  -- The line goes up to the call; what is behind it leaves the method.
  have whole : Preamble.ask t registry resume ++ Preamble.dispatch t registry
      = Preamble.ask t registry resume
        ++ (Preamble.keys t ++ [.ldcI4 (.ofNat t.parameters.length), .typed .newarr .object]
          ++ Preamble.pack t t.parameters.zipIdx)
        ++ [.invoke .call registry.callPatch] ++ Preamble.leave t registry := by
    simp only [Preamble.dispatch, List.append_assoc]
  have allocated (store : Store O W) (elements : List (Value O)) :
      (store.allocate elements).arrays[store.arrays.length]? = some elements := by
    rw [Store.allocate, List.getElem?_append_right (Nat.le_refl _), Nat.sub_self,
      List.getElem?_cons_zero]
  dsimp only at front ⊢
  rw [whole] at front ⊢
  refine run_leave valid distinct front ?_
  rw [line_append, line_append, Frame.fresh, line_ask patched, Option.bind_some,
    line_arguments fits filled, Option.bind_some,
    line_cons _ (act_callPatch valid _ _ (allocated _ _)), line, List.append_assoc]
  rfl

/-- A runtime that **always has a patch**, which gives a boxed number and touches nothing. -/
def patching : Runtime Unit Unit where
  hasPatch _ _ store := (true, store)
  callPatch _ _ _ store := (.boxed (.builtin .int32) (.int 42), store)
  casts _ _ _ := true
  other _ frame := (.leave .threw, frame)

/-- The target of an instance method with a number and a string. -/
def mixedTarget : MethodTarget :=
  ⟨"Foo", "Mix", [.builtin .int32, .string], false, .builtin .int32⟩

/-- The number of the instance method is boxed, its string is not, and its result is unboxed. -/
theorem run_of_hasPatch_mixed :
    ∃ p b, Preamble.build mixedTarget (.standard "Hotfix" "Registry") ⟨0⟩ = .ok p
      ∧ p.instructions <+: b.code.map (·.instruction)
      ∧ (patching.machine (.standard "Hotfix" "Registry")).run b p.instructions.length
          (start b (.fresh [.object (), .int 3, .text "three"] [] ⟨⟨[], ()⟩, []⟩))
        = .left .returned ⟨[.int 42], [.object (), .int 3, .text "three"], [],
            ⟨⟨[[.boxed (.builtin .int32) (.int 3), .text "three"]], ()⟩,
              [.hasPatch "Foo" "Mix",
                .callPatch "Foo" "Mix" [.boxed (.builtin .int32) (.int 3), .text "three"]]⟩⟩ := by
  have built : Preamble.build mixedTarget (.standard "Hotfix" "Registry") ⟨0⟩ = .ok _ :=
    Preamble.build_eq_ok_iff.mpr ⟨by decide, rfl⟩
  let old : Body := { Body.empty with code := [⟨⟨0⟩, 0, .plain .ret⟩] }
  have wf : old.WellFormed := ⟨by decide, by decide⟩
  have code : ∀ p : Preamble,
      ({ old with code := Body.enlist 1 p.instructions ++ old.code } : Body).code
      = Body.enlist old.code.length p.instructions ++ old.code := fun _ => rfl
  let entered : List (Value Unit) := [.object (), .int 3, .text "three"]
  have filled : entered.length = mixedTarget.parameters.length + 1 := rfl
  have patched : (patching.hasPatch "Foo" "Mix" ⟨[], ()⟩).1 = true := rfl
  obtain ⟨elements, length, each, run⟩ := @run_of_hasPatch _ _ patching _ _ entered [] ⟨[], ()⟩ []
    rfl _ _ built _ (wf.distinct_enlist_append (code _)) (Body.prefix_of_enlist_append (code _))
    filled patched
  obtain ⟨first, firstHere, firstElement⟩ := each 0 _ rfl
  obtain ⟨second, secondHere, secondElement⟩ := each 1 _ rfl
  obtain rfl := Option.some.inj firstHere
  obtain rfl := Option.some.inj secondHere
  -- Two elements, each of which is known by its index.
  match elements, length with
  | [_, _], _ =>
    obtain rfl := Option.some.inj firstElement
    obtain rfl := Option.some.inj secondElement
    exact ⟨_, _, built, Body.prefix_of_enlist_append (code _), run⟩

end Runtime

end Hotpatch
