import Hotpatch.Patch.Registry
import Hotpatch.Proofs.Execution.Machine

/-! # The reference machine

What the instructions of a preamble mean at run time: strings and numbers are loaded, arrays are made
and written, values are boxed and unboxed, and the two methods of the registry are called.

* **`Value`**, **`Store`**, **`Surroundings`** — what instructions work on; every call of the registry
  is noted.
* **`Runtime`** — what the registry answers, which casts succeed, and what all else means.
* **`Runtime.machine`** — the machine of a runtime for a registry. -/

namespace Hotpatch

/-! ## (1) Values and stores -/

/-- A **value**. What is none of the others is an object of the type `O`. -/
inductive Value (O : Type) where
  | null
  | int (value : Int32)
  | text (text : String)
  | boxed (type : TypeSig) (content : Value O)
  /-- A reference to an array. -/
  | array (address : Nat)
  | object (object : O)

/-- **Truth**: what is neither null nor zero counts as true. -/
def Value.truth {O : Type} : Value O → Bool
  | .null => false
  | .int value => value != 0
  | _ => true

/-- The **store**: all arrays by their addresses, and what else there is. -/
structure Store (O W : Type) where
  arrays : List (List (Value O))
  outside : W

/-- A **call** of the registry. -/
inductive RegistryCall (O : Type) where
  | hasPatch (typeName methodName : String)
  /-- The elements of the array at the time of the call are the arguments. -/
  | callPatch (typeName methodName : String) (arguments : List (Value O))

/-- The **surroundings** of a method: the store, and the calls of the registry so far. -/
structure Surroundings (O W : Type) where
  store : Store O W
  calls : List (RegistryCall O)

variable {O W : Type}

/-- **Allocate** an array. Its address is the number of arrays before it. -/
def Store.allocate (store : Store O W) (elements : List (Value O)) : Store O W :=
  { store with arrays := store.arrays ++ [elements] }

/-- **Write** an element of an array, if there is one at the index. -/
def Store.write (store : Store O W) (address index : Nat) (value : Value O) :
    Option (Store O W) :=
  (store.arrays[address]?).bind fun elements =>
    if index < elements.length then
      some { store with arrays := store.arrays.set address (elements.set index value) }
    else none

/-! ## (2) The machine -/

/-- What an instruction leads to. -/
abbrev Effect (O W : Type) := Control × Frame (Value O) (Surroundings O W)

/-- A **runtime**. -/
structure Runtime (O W : Type) where
  /-- Whether there is a patch for the type and the method. -/
  hasPatch : String → String → Store O W → Bool × Store O W
  /-- The result of the patch for the type and the method on the array at an address. -/
  callPatch : String → String → Nat → Store O W → Value O × Store O W
  /-- Whether a reference can be cast to a type. -/
  casts : TypeSig → Value O → Store O W → Bool
  /-- The instructions without a meaning below, and those that do not find the operands they need. -/
  other : Instruction Handle → Frame (Value O) (Surroundings O W) → Effect O W

namespace Runtime

variable (R : Runtime O W)

/-- **Unbox** a value as a type: a value type comes out of its box, a reference is cast. -/
def unbox (type : TypeSig) (value : Value O) (store : Store O W) : Option (Value O) :=
  if type.isValueType then
    match value with
    | .boxed boxedAs content => if boxedAs = type then some content else none
    | _ => none
  else if R.casts type value store then some value
  else none

/-- The meaning of a **call** of the registry, if the stack holds what the method takes. -/
def callRegistry (registry : PatchRegistry) (method : MethodRef)
    (frame : Frame (Value O) (Surroundings O W)) : Option (Effect O W) :=
  if method = registry.hasPatch then
    match frame.stack with
    | .text methodName :: .text typeName :: rest =>
      let (answer, store) := R.hasPatch typeName methodName frame.world.store
      some (.next, { frame with
        stack := .int (if answer then 1 else 0) :: rest
        world := ⟨store, frame.world.calls ++ [.hasPatch typeName methodName]⟩ })
    | _ => none
  else if method = registry.callPatch then
    match frame.stack with
    | .array address :: .text methodName :: .text typeName :: rest =>
      (frame.world.store.arrays[address]?).map fun elements =>
        let (result, store) := R.callPatch typeName methodName address frame.world.store
        (.next, { frame with
          stack := if registry.returnsValue then result :: rest else rest
          world := ⟨store, frame.world.calls ++ [.callPatch typeName methodName elements]⟩ })
    | _ => none
  else none

/-- The meaning of an instruction, if it is one of a preamble's and finds its operands. -/
def act? (registry : PatchRegistry) (instruction : Instruction Handle)
    (frame : Frame (Value O) (Surroundings O W)) : Option (Effect O W) :=
  let passing (stack : List (Value O)) : Option (Effect O W) := some (.next, { frame with stack })
  match instruction with
  | .ldstr text => passing (.text text :: frame.stack)
  | .ldcI4 value => passing (.int value :: frame.stack)
  | .slot .ldarg index =>
    (frame.arguments[index.toNat]?).bind fun argument => passing (argument :: frame.stack)
  | .invoke .call method => R.callRegistry registry method frame
  | .plain .ret => some (.leave .returned, frame)
  | .plain .dup =>
    match frame.stack with
    | value :: rest => passing (value :: value :: rest)
    | _ => none
  | .plain .pop =>
    match frame.stack with
    | _ :: rest => passing rest
    | _ => none
  | .branch _ .isFalse _ =>
    match frame.stack with
    | value :: rest => some (if value.truth then .next else .jump 0, { frame with stack := rest })
    | _ => none
  | .typed .box type =>
    match frame.stack with
    | value :: rest => passing (.boxed type value :: rest)
    | _ => none
  | .typed .unboxAny type =>
    match frame.stack with
    | value :: rest =>
      match R.unbox type value frame.world.store with
      | some content => passing (content :: rest)
      | none => some (.leave .threw, frame)
    | _ => none
  | .typed .newarr _ =>
    match frame.stack with
    | .int length :: rest =>
      if 0 ≤ length.toInt then
        some (.next, { frame with
          stack := .array frame.world.store.arrays.length :: rest
          world := { frame.world with
            store := frame.world.store.allocate (List.replicate length.toInt.toNat .null) } })
      else none
    | _ => none
  | .plain .stelemRef =>
    match frame.stack with
    | value :: .int index :: .array address :: rest =>
      if 0 ≤ index.toInt then
        (frame.world.store.write address index.toInt.toNat value).map fun store =>
          (.next, { frame with stack := rest, world := { frame.world with store } })
      else none
    | _ => none
  | _ => none

/-- The **reference machine** of a runtime for a registry. -/
def machine (registry : PatchRegistry) : Machine (Value O) (Surroundings O W) where
  text := .text
  truth := Value.truth
  act instruction frame := (R.act? registry instruction frame).getD (R.other instruction frame)

variable {R}

/-- What has a meaning above is what the machine does. -/
theorem act_of_act? {registry : PatchRegistry} {instruction : Instruction Handle}
    {frame : Frame (Value O) (Surroundings O W)} {effect : Effect O W}
    (meaning : R.act? registry instruction frame = some effect) :
    (R.machine registry).act instruction frame = effect := by
  show (R.act? registry instruction frame).getD (R.other instruction frame) = effect
  rw [meaning, Option.getD_some]

/-- A call has the meaning that the registry gives it. -/
theorem act_invoke {registry : PatchRegistry} {method : MethodRef}
    {frame : Frame (Value O) (Surroundings O W)} {effect : Effect O W}
    (meaning : R.callRegistry registry method frame = some effect) :
    (R.machine registry).act (.invoke .call method) frame = effect :=
  act_of_act? meaning

end Runtime

end Hotpatch
