import Hotpatch.Binary.Layout
import Hotpatch.Code.Instruction

/-! # Forms

How instructions are told apart in code: the opcode says what operand follows, and in some cases
there is none because the opcode stands for an operation and its operand at once.

* **`Opcode.write`**, **`Opcode.read`** — an opcode as one byte, or as two that start with `0xfe`.
* **`Form`** — what follows an opcode.
* **`Form.table`** — every opcode with its form.
* **`Form.ofOpcode?`** — the form of an opcode, if it has one.
* **`Form.operandSize`** — how many bytes follow the opcode. -/

namespace Hotpatch

/-! ## (1) Opcodes -/

namespace Opcode

/-- The byte that starts an opcode of two bytes. -/
def escapeByte : UInt8 := 0xfe

/-- **Bytes** of an opcode. -/
def write (opcode : Opcode) : List UInt8 :=
  if opcode ≤ 0xff then [opcode.toUInt8] else [(opcode >>> 8).toUInt8, opcode.toUInt8]

/-- **Opcode read** from the front of some bytes. -/
def read : Reader Opcode := do
  let first ← Reader.byte
  if first = escapeByte then
    let second ← Reader.byte
    return first.toUInt16 <<< 8 ||| second.toUInt16
  else return first.toUInt16

/-- The opcode of the fixed form of a constant between minus one and eight. -/
def constantFixed (value : Int32) : Opcode :=
  UInt16.ofNat (0x16 + value.toInt).toNat

/-- A constant in one signed byte. -/
def constantByte : Opcode := 0x1f

/-- A constant in four bytes. -/
def constantWord : Opcode := 0x20

/-- A constant in eight bytes. -/
def constantLong : Opcode := 0x21

/-- A floating-point constant in four bytes. -/
def constantSingle : Opcode := 0x22

/-- A floating-point constant in eight bytes. -/
def constantDouble : Opcode := 0x23

/-- Load a string. -/
def ldstr : Opcode := 0x72

/-- Jump by a table. -/
def switch : Opcode := 0x45

end Opcode

/-! ## (2) Forms -/

/-- A **form**: what follows an opcode in code. -/
inductive Form where
  /-- Nothing follows: the opcode is the whole instruction. -/
  | complete (instruction : Instruction Int)
  | slotByte (op : SlotOp)
  | slotWord (op : SlotOp)
  | constantByte
  | constantWord
  | constantLong
  | constantSingle
  | constantDouble
  | invoke (op : InvokeOp)
  | typed (op : TypeOp)
  | ldstr
  | branch (reach : Reach) (condition : Condition)
  | switch
deriving Repr, DecidableEq, Inhabited

namespace Form

/-- The slots that have a fixed form. -/
def fixedSlots : List UInt16 := [0, 1, 2, 3]

/-- The constants that have a fixed form. -/
def fixedConstants : List Int32 := [-1, 0, 1, 2, 3, 4, 5, 6, 7, 8]

/-- The fixed forms of a slot operation. -/
def ofFixedSlots (op : SlotOp) : List (Opcode × Form) :=
  match op.fixedOpcode? with
  | none => []
  | some base => fixedSlots.map fun index => (base + index, complete (.slot op index))

/-- The branches of a reach. -/
def ofBranches (reach : Reach) : List (Opcode × Form) :=
  Condition.all.map fun condition => (reach.opcode condition, branch reach condition)

/-- The **table** of opcodes and forms. -/
def table : List (Opcode × Form) :=
  (PlainOp.all.map fun op => (op.opcode, complete (.plain op)))
    ++ SlotOp.all.flatMap ofFixedSlots
    ++ (SlotOp.all.map fun op => (op.byteOpcode, slotByte op))
    ++ (SlotOp.all.map fun op => (op.wordOpcode, slotWord op))
    ++ (fixedConstants.map fun value => (Opcode.constantFixed value, complete (.ldcI4 value)))
    ++ [(Opcode.constantByte, constantByte), (Opcode.constantWord, constantWord),
      (Opcode.constantLong, constantLong), (Opcode.constantSingle, constantSingle),
      (Opcode.constantDouble, constantDouble), (Opcode.ldstr, ldstr), (Opcode.switch, switch)]
    ++ (InvokeOp.all.map fun op => (op.opcode, invoke op))
    ++ (TypeOp.all.map fun op => (op.opcode, typed op))
    ++ ofBranches .short
    ++ ofBranches .long

/-- **Form of an opcode**. -/
def ofOpcode? (opcode : Opcode) : Option Form :=
  (table.find? (·.1 == opcode)).map (·.2)

/-- **Operand size**: the bytes that follow the opcode of an instruction in this form. -/
def operandSize (instruction : Instruction Int) : Form → Nat
  | complete _ => 0
  | slotByte _ | constantByte | branch .short _ => 1
  | slotWord _ => 2
  | constantWord | constantSingle | invoke _ | typed _ | ldstr | branch .long _ => 4
  | constantLong | constantDouble => 8
  | switch => 4 + 4 * instruction.targets.length

end Form

end Hotpatch
