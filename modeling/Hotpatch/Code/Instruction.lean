import Hotpatch.Code.Operation
import Hotpatch.Decimal.Shortest
import Hotpatch.Metadata.MethodRef
import Hotpatch.Text.Quoted

/-! # Instructions

An instruction with its operand. What a branch target is depends on the place: a handle in a body,
a position in a list of instructions, a displacement in written code.

* **`Instruction`** — an operation and its operand, over any type of labels.
* **`Instruction.mapLabels`** — the same instruction with other labels.
* **`Instruction.targets`** — where it may jump.
* **`Instruction.width`** — the bytes its shortest form takes.
* **`Instruction.effect`**, **`Instruction.fallsThrough`** — what it does to the stack and whether
  the next instruction comes after it.
* **`Instruction.render`** — the text shown in listings. -/

namespace Hotpatch

/-- An **instruction** whose branch targets are labels of type `L`. Floating-point constants are
kept as their bits. -/
inductive Instruction (L : Type) where
  | plain (op : PlainOp)
  | slot (op : SlotOp) (index : UInt16)
  | ldcI4 (value : Int32)
  | ldcI8 (value : Int64)
  | ldcR4 (bits : UInt32)
  | ldcR8 (bits : UInt64)
  | invoke (op : InvokeOp) (method : MethodRef)
  | typed (op : TypeOp) (type : TypeSig)
  | ldstr (text : String)
  | branch (reach : Reach) (condition : Condition) (target : L)
  | switch (targets : List L)
deriving Repr, DecidableEq, Inhabited

namespace Instruction

/-! ## (1) Labels -/

/-- **Map labels**, from the first one on: whatever the function does, it does once for each label,
and nothing else in the instruction changes. -/
def mapLabels {m : Type → Type} [Monad m] {L L' : Type} (f : L → m L') :
    Instruction L → m (Instruction L')
  | plain op => pure (plain op)
  | slot op index => pure (slot op index)
  | ldcI4 value => pure (ldcI4 value)
  | ldcI8 value => pure (ldcI8 value)
  | ldcR4 bits => pure (ldcR4 bits)
  | ldcR8 bits => pure (ldcR8 bits)
  | invoke op method => pure (invoke op method)
  | typed op type => pure (typed op type)
  | ldstr text => pure (ldstr text)
  | branch reach condition target => branch reach condition <$> f target
  | switch targets => switch <$> targets.mapM f

/-- **Relabel**: map labels by a function that does nothing else. -/
def relabel {L L' : Type} (f : L → L') (i : Instruction L) : Instruction L' :=
  Id.run (i.mapLabels fun label => pure (f label))

/-- **Targets** an instruction may jump to. -/
def targets {L : Type} : Instruction L → List L
  | branch _ _ target => [target]
  | switch targets => targets
  | _ => []

/-! ## (2) Control and stack -/

/-- **Falls through**: the next instruction may come after this one. -/
def fallsThrough {L : Type} : Instruction L → Bool
  | plain .ret | plain .throw | branch _ .always _ => false
  | _ => true

/-- **Effect of an invocation**. A constructor makes the object it works on, and leaves it. -/
def invokeEffect : InvokeOp → MethodRef → StackEffect
  | .newobj, method => ⟨method.signature.parameters.length, 1⟩
  | _, method =>
    ⟨method.signature.argumentSlots, if method.signature.returnType.isVoid then 0 else 1⟩

/-- **Effect** on the evaluation stack. -/
def effect {L : Type} : Instruction L → StackEffect
  | plain op => op.effect
  | slot op _ => op.effect
  | ldcI4 _ | ldcI8 _ | ldcR4 _ | ldcR8 _ | ldstr _ => ⟨0, 1⟩
  | invoke op method => invokeEffect op method
  | typed _ _ => ⟨1, 1⟩
  | branch _ condition _ => ⟨condition.operands, 0⟩
  | switch _ => ⟨1, 0⟩

/-! ## (3) Width -/

/-- **Width** of an opcode in bytes. -/
def opcodeWidth (opcode : Opcode) : Nat :=
  if opcode ≤ 0xff then 1 else 2

/-- **Slot width**: the four slots of the fixed form take one byte, those up to 255 take two. -/
def slotWidth (op : SlotOp) (index : UInt16) : Nat :=
  if op.fixedOpcode?.isSome ∧ index ≤ 3 then 1 else if index ≤ 255 then 2 else 4

/-- **Constant width**: from minus one to eight a constant takes one byte, a signed byte two. -/
def constantWidth (value : Int32) : Nat :=
  if -1 ≤ value ∧ value ≤ 8 then 1 else if -128 ≤ value ∧ value ≤ 127 then 2 else 5

/-- **Width** of an instruction: the bytes of its shortest form. -/
def width {L : Type} : Instruction L → Nat
  | plain op => opcodeWidth op.opcode
  | slot op index => slotWidth op index
  | ldcI4 value => constantWidth value
  | ldcI8 _ | ldcR8 _ => 9
  | ldcR4 _ | invoke _ _ | typed _ _ | ldstr _ => 5
  | branch .long _ _ => 5
  | branch .short _ _ => 2
  | switch targets => 5 + 4 * targets.length

/-! ## (4) Text -/

/-- **Mnemonic** of an instruction. -/
def mnemonic {L : Type} : Instruction L → String
  | plain op => op.mnemonic
  | slot op _ => op.mnemonic
  | ldcI4 _ => "ldc.i4"
  | ldcI8 _ => "ldc.i8"
  | ldcR4 _ => "ldc.r4"
  | ldcR8 _ => "ldc.r8"
  | invoke op _ => op.mnemonic
  | typed op _ => op.mnemonic
  | ldstr _ => "ldstr"
  | branch reach condition _ => reach.mnemonic condition
  | switch _ => "switch"

/-- **Operand text**, if there is an operand, with labels shown by `label`. -/
def operandText? {L : Type} (label : L → String) : Instruction L → Option String
  | plain _ => none
  | slot _ index => some (toString index.toNat)
  | ldcI4 value => some (Text.integer value.toInt)
  | ldcI8 value => some (Text.integer value.toInt)
  | ldcR4 bits => some (Decimal.BinaryFormat.single.plainText bits.toNat)
  | ldcR8 bits => some (Decimal.BinaryFormat.double.plainText bits.toNat)
  | invoke _ method => some method.render
  | typed _ type => some type.render
  | ldstr text => some (Text.quoted text)
  | branch _ _ target => some (label target)
  | switch targets => some (Text.list (targets.map label))

/-- **Rendered** instruction: the mnemonic, and the operand after a blank. -/
def render {L : Type} (label : L → String) (i : Instruction L) : String :=
  match i.operandText? label with
  | some operand => i.mnemonic ++ " " ++ operand
  | none => i.mnemonic

end Instruction

end Hotpatch
