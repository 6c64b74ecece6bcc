/-! # Operations

The operations of the instruction set, grouped by the operand they take, with their mnemonics,
their opcodes and what they do to the evaluation stack.

* **`PlainOp`** — no operand.
* **`SlotOp`** — an argument or local slot.
* **`InvokeOp`** — a method.
* **`TypeOp`** — a type.
* **`Condition`** — when a branch is taken.
* **`StackEffect`** — operands taken from the stack and results put onto it.

An opcode above `0xff` is written as two bytes, the higher one first. -/

namespace Hotpatch

/-- The **opcode** of an operation. -/
abbrev Opcode := UInt16

/-- A **stack effect**: how many values are popped, and how many are pushed after that. -/
structure StackEffect where
  pops : Nat
  pushes : Nat
deriving Repr, DecidableEq, Inhabited

/-! ## (1) Operations without operand -/

/-- A **plain operation**: one without an operand. -/
inductive PlainOp where
  | nop | ldnull | dup | pop | ret
  | add | sub | mul | div | rem | and | or | xor | neg | not
  | ldlen | ldelemRef | stelemRef | throw
  | ceq | cgt | clt
deriving Repr, DecidableEq, Inhabited

namespace PlainOp

/-- All plain operations. -/
def all : List PlainOp :=
  [nop, ldnull, dup, pop, ret, add, sub, mul, div, rem, and, or, xor, neg, not, ldlen, ldelemRef,
    stelemRef, throw, ceq, cgt, clt]

/-- **Mnemonic** of a plain operation. -/
def mnemonic : PlainOp → String
  | nop => "nop"
  | ldnull => "ldnull"
  | dup => "dup"
  | pop => "pop"
  | ret => "ret"
  | add => "add"
  | sub => "sub"
  | mul => "mul"
  | div => "div"
  | rem => "rem"
  | and => "and"
  | or => "or"
  | xor => "xor"
  | neg => "neg"
  | not => "not"
  | ldlen => "ldlen"
  | ldelemRef => "ldelem.ref"
  | stelemRef => "stelem.ref"
  | throw => "throw"
  | ceq => "ceq"
  | cgt => "cgt"
  | clt => "clt"

/-- **Opcode** of a plain operation. -/
def opcode : PlainOp → Opcode
  | nop => 0x00
  | ldnull => 0x14
  | dup => 0x25
  | pop => 0x26
  | ret => 0x2a
  | add => 0x58
  | sub => 0x59
  | mul => 0x5a
  | div => 0x5b
  | rem => 0x5d
  | and => 0x5f
  | or => 0x60
  | xor => 0x61
  | neg => 0x65
  | not => 0x66
  | ldlen => 0x8e
  | ldelemRef => 0x9a
  | stelemRef => 0xa2
  | throw => 0x7a
  | ceq => 0xfe01
  | cgt => 0xfe02
  | clt => 0xfe04

/-- **Stack effect** of a plain operation. What `ret` takes depends on the method around it, and is
not counted. -/
def effect : PlainOp → StackEffect
  | nop | ret => ⟨0, 0⟩
  | ldnull => ⟨0, 1⟩
  | dup => ⟨1, 2⟩
  | pop | throw => ⟨1, 0⟩
  | add | sub | mul | div | rem | and | or | xor | ceq | cgt | clt | ldelemRef => ⟨2, 1⟩
  | neg | not | ldlen => ⟨1, 1⟩
  | stelemRef => ⟨3, 0⟩

end PlainOp

/-! ## (2) Loads and stores of slots -/

/-- A **slot operation**: load or store an argument or a local. -/
inductive SlotOp where
  | ldarg | starg | ldloc | stloc
deriving Repr, DecidableEq, Inhabited

namespace SlotOp

/-- All slot operations. -/
def all : List SlotOp := [ldarg, starg, ldloc, stloc]

/-- **Mnemonic** of a slot operation. -/
def mnemonic : SlotOp → String
  | ldarg => "ldarg"
  | starg => "starg"
  | ldloc => "ldloc"
  | stloc => "stloc"

/-- **Fixed form**: the opcode for slot zero of the four that name their slot themselves. Storing
an argument has no such form. -/
def fixedOpcode? : SlotOp → Option Opcode
  | ldarg => some 0x02
  | starg => none
  | ldloc => some 0x06
  | stloc => some 0x0a

/-- **Byte form**: the opcode with the slot in one byte. -/
def byteOpcode : SlotOp → Opcode
  | ldarg => 0x0e
  | starg => 0x10
  | ldloc => 0x11
  | stloc => 0x13

/-- **Word form**: the opcode with the slot in two bytes. -/
def wordOpcode : SlotOp → Opcode
  | ldarg => 0xfe09
  | starg => 0xfe0b
  | ldloc => 0xfe0c
  | stloc => 0xfe0e

/-- **Stack effect** of a slot operation. -/
def effect : SlotOp → StackEffect
  | ldarg | ldloc => ⟨0, 1⟩
  | starg | stloc => ⟨1, 0⟩

end SlotOp

/-! ## (3) Operations on methods and types -/

/-- An **invocation**: call a method, or make an object by a constructor. -/
inductive InvokeOp where
  | call | callvirt | newobj
deriving Repr, DecidableEq, Inhabited

namespace InvokeOp

/-- All invocations. -/
def all : List InvokeOp := [call, callvirt, newobj]

/-- **Mnemonic** of an invocation. -/
def mnemonic : InvokeOp → String
  | call => "call"
  | callvirt => "callvirt"
  | newobj => "newobj"

/-- **Opcode** of an invocation. -/
def opcode : InvokeOp → Opcode
  | call => 0x28
  | callvirt => 0x6f
  | newobj => 0x73

end InvokeOp

/-- A **type operation**: one that works on values of a given type. -/
inductive TypeOp where
  | box | unboxAny | castclass | isinst | newarr
deriving Repr, DecidableEq, Inhabited

namespace TypeOp

/-- All type operations. -/
def all : List TypeOp := [box, unboxAny, castclass, isinst, newarr]

/-- **Mnemonic** of a type operation. -/
def mnemonic : TypeOp → String
  | box => "box"
  | unboxAny => "unbox.any"
  | castclass => "castclass"
  | isinst => "isinst"
  | newarr => "newarr"

/-- **Opcode** of a type operation. -/
def opcode : TypeOp → Opcode
  | box => 0x8c
  | unboxAny => 0xa5
  | castclass => 0x74
  | isinst => 0x75
  | newarr => 0x8d

end TypeOp

/-! ## (4) Branches -/

/-- A **condition** under which a branch is taken. -/
inductive Condition where
  | always | isFalse | isTrue | eq | ge | gt | le | lt | neUn
deriving Repr, DecidableEq, Inhabited

namespace Condition

/-- All conditions, in the order of their opcodes. -/
def all : List Condition := [always, isFalse, isTrue, eq, ge, gt, le, lt, neUn]

/-- **Mnemonic** of the branch under a condition. -/
def mnemonic : Condition → String
  | always => "br"
  | isFalse => "brfalse"
  | isTrue => "brtrue"
  | eq => "beq"
  | ge => "bge"
  | gt => "bgt"
  | le => "ble"
  | lt => "blt"
  | neUn => "bne.un"

/-- **Index** of a condition in the block of branch opcodes. -/
def index : Condition → UInt8
  | always => 0
  | isFalse => 1
  | isTrue => 2
  | eq => 3
  | ge => 4
  | gt => 5
  | le => 6
  | lt => 7
  | neUn => 8

/-- **Operands** a branch compares. -/
def operands : Condition → Nat
  | always => 0
  | isFalse | isTrue => 1
  | _ => 2

end Condition

/-- The **reach** of a branch: whether its displacement is written in one byte or in four. -/
inductive Reach where
  | long | short
deriving Repr, DecidableEq, Inhabited

namespace Reach

/-- **Mnemonic** of the branch of a reach under a condition. -/
def mnemonic : Reach → Condition → String
  | long, condition => condition.mnemonic
  | short, condition => condition.mnemonic ++ ".s"

/-- **Opcode** of the branch of a reach under a condition. -/
def opcode : Reach → Condition → Opcode
  | long, condition => 0x38 + condition.index.toUInt16
  | short, condition => 0x2b + condition.index.toUInt16

end Reach

end Hotpatch
