import Hotpatch.Journal
import Hotpatch.Module
import Hotpatch.Patch.Registry

/-! # Preambles

The instructions put in front of a method. They ask the registry for a patch under the name of the
type and of the method; if there is none the method goes on as before, otherwise the patch is run
on the arguments, and the method returns what it gives.

* **`MethodTarget`** — what a preamble has to know about its method.
* **`Preamble.build`** — the preamble of a method.
* **`Preamble.deepest`** — the deepest stack of instructions that run one after the other. -/

namespace Hotpatch

/-! ## (1) Targets -/

/-- The **target** of a patch: a method, as its preamble sees it. -/
structure MethodTarget where
  /-- The name of the type, without its namespace. -/
  typeName : String
  methodName : String
  parameters : List TypeSig
  isStatic : Bool
  returnType : TypeSig
deriving Repr, DecidableEq, Inhabited

namespace MethodTarget

/-- **Target** of a method definition. -/
def ofMethod (owner : TypeDef) (method : MethodDef) : MethodTarget :=
  ⟨owner.name, method.name, method.parameters.map (·.type), method.isStatic, method.returnType⟩

/-- **Argument slot** of a parameter, if it can be named by an instruction. A method that is called
on an object has that object in slot zero. -/
def argumentSlot? (t : MethodTarget) (index : Nat) : Option UInt16 :=
  let slot := if t.isStatic then index else index + 1
  if slot < 65536 then some (UInt16.ofNat slot) else none

end MethodTarget

/-! ## (2) Preambles -/

/-- A **preamble**. -/
structure Preamble where
  /-- The instructions, in the order of execution. -/
  instructions : List (Instruction Handle)
  /-- Where the method goes on when there is no patch. -/
  resume : Handle
  /-- The deepest stack while the preamble runs. -/
  maxStack : UInt16
deriving Repr, DecidableEq, Inhabited

namespace Preamble

/-- The **keys** under which the registry knows the method. -/
def keys (t : MethodTarget) : List (Instruction Handle) :=
  [.ldstr t.typeName, .ldstr t.methodName]

/-- **Ask** the registry, and go on with the method if there is no patch. -/
def ask (t : MethodTarget) (registry : PatchRegistry) (resume : Handle) :
    List (Instruction Handle) :=
  keys t ++ [.invoke .call registry.hasPatch, .branch .long .isFalse resume]

/-- **Store an argument** into the array on the stack, boxed if it is a value. -/
def storeArgument (index : Nat) (slot : UInt16) (type : TypeSig) : List (Instruction Handle) :=
  [.plain .dup, .ldcI4 (Int32.ofNat index), .slot .ldarg slot]
    ++ (if type.isValueType then [.typed .box type] else [])
    ++ [.plain .stelemRef]

/-- **Store all arguments** into the array on the stack. -/
def storeArguments (t : MethodTarget) : Except Fault (List (Instruction Handle)) := do
  let stores ← t.parameters.zipIdx.mapM fun (type, index) =>
    match t.argumentSlot? index with
    | some slot => .ok (storeArgument index slot type)
    | none => .error (.tooManyParameters t.parameters.length)
  return stores.flatten

/-- **Leave** the method with the result of the patch, or drop the result of one that returns
nothing. -/
def leave (t : MethodTarget) (registry : PatchRegistry) : List (Instruction Handle) :=
  (if !t.returnType.isVoid then [.typed .unboxAny t.returnType]
    else if registry.returnsValue then [.plain .pop]
    else [])
    ++ [.plain .ret]

/-- One more instruction: the depth of the stack after it, and the deepest so far. -/
def deepen {L : Type} (depths : Nat × Nat) (instruction : Instruction L) : Nat × Nat :=
  let depth := depths.1 - instruction.effect.pops + instruction.effect.pushes
  (depth, max depths.2 depth)

/-- **Deepest** stack of instructions that run one after the other from an empty stack. A stack
deeper than can be declared counts as the deepest that can. -/
def deepest {L : Type} (instructions : List (Instruction L)) : UInt16 :=
  UInt16.ofNat (min (instructions.foldl deepen (0, 0)).2 65535)

/-- **Build** the preamble of a method. -/
def build (t : MethodTarget) (registry : PatchRegistry) (resume : Handle) :
    Except Fault Preamble := do
  let stores ← storeArguments t
  let instructions := ask t registry resume ++ keys t
    ++ [.ldcI4 (Int32.ofNat t.parameters.length), .typed .newarr .object]
    ++ stores ++ [.invoke .call registry.callPatch] ++ leave t registry
  return ⟨instructions, resume, deepest instructions⟩

/-- The **record** of a preamble that was built. -/
def record (t : MethodTarget) (p : Preamble) : Record :=
  ⟨.trace, "Preamble for " ++ t.typeName ++ "::" ++ t.methodName ++ " (max stack "
    ++ toString p.maxStack.toNat ++ "): "
    ++ Text.list (p.instructions.map fun i => Text.quoted (i.render Handle.text))⟩

end Preamble

end Hotpatch
