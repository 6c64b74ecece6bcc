import Hotpatch.Code.Body
import Hotpatch.Code.Form
import Hotpatch.Metadata.TokenTable

/-! # Encoded code

The bytes of instructions. Every instruction takes its shortest form, branch targets become
displacements from the end of the branch, and strings, types and methods become tokens of a table
that grows on the way.

* **`Instruction.encode`** — one instruction over displacements.
* **`Body.encode`** — a whole body, whose offsets have to be current. -/

namespace Hotpatch

/-- An **assembler** step: it may ask the token table for tokens, and it may fail. -/
abbrev Assembler := StateT TokenTable (Except Fault)

namespace Instruction

/-- **Slot bytes**: the fixed form for the first four slots, one byte up to 255, two beyond. -/
def encodeSlot (op : SlotOp) (index : UInt16) : List UInt8 :=
  match op.fixedOpcode? with
  | some base =>
    if index ≤ 3 then (base + index).write
    else if index ≤ 255 then op.byteOpcode.write ++ [index.toUInt8]
    else op.wordOpcode.write ++ Binary.write index
  | none =>
    if index ≤ 255 then op.byteOpcode.write ++ [index.toUInt8]
    else op.wordOpcode.write ++ Binary.write index

/-- **Constant bytes**: the fixed form from minus one to eight, one byte if it fits, else four. -/
def encodeConstant (value : Int32) : List UInt8 :=
  if -1 ≤ value ∧ value ≤ 8 then (Opcode.constantFixed value).write
  else if -128 ≤ value ∧ value ≤ 127 then Opcode.constantByte.write ++ Binary.write value.toInt8
  else Opcode.constantWord.write ++ Binary.write value

/-- **Displacement bytes** of a reach, if the displacement fits. -/
def encodeDisplacement (source : Nat) (reach : Reach) (displacement : Int) :
    Except Fault (List UInt8) :=
  match reach with
  | .short =>
    if -128 ≤ displacement ∧ displacement ≤ 127 then
      .ok (Binary.write (Int8.ofInt displacement))
    else .error (.branchOutOfRange source displacement)
  | .long =>
    if -2147483648 ≤ displacement ∧ displacement ≤ 2147483647 then
      .ok (Binary.write (Int32.ofInt displacement))
    else .error (.branchOutOfRange source displacement)

/-- **Encode** an instruction that starts at an offset. -/
def encode (source : Nat) : Instruction Int → Assembler (List UInt8)
  | plain op => return op.opcode.write
  | slot op index => return encodeSlot op index
  | ldcI4 value => return encodeConstant value
  | ldcI8 value => return Opcode.constantLong.write ++ Binary.write value
  | ldcR4 bits => return Opcode.constantSingle.write ++ Binary.write bits
  | ldcR8 bits => return Opcode.constantDouble.write ++ Binary.write bits
  | invoke op method => do
    return op.opcode.write ++ Binary.write (← modifyGet (TokenTable.internMethod method))
  | typed op type => do
    return op.opcode.write ++ Binary.write (← modifyGet (TokenTable.internType type))
  | ldstr text => do
    return Opcode.ldstr.write ++ Binary.write (← modifyGet (TokenTable.internString text))
  | branch reach condition displacement => do
    return (reach.opcode condition).write ++ (← encodeDisplacement source reach displacement)
  | switch displacements => do
    let bytes ← displacements.mapM fun d => encodeDisplacement source .long d
    return Opcode.switch.write ++ writeLength displacements.length ++ bytes.flatten

end Instruction

namespace Body

/-- **Displacement** of a target from where the instruction that jumps there stops, given the offsets
by handle. In code that can be written it is the `offsetDistance` of the two, as
`Body.displacement_eq_offsetDistance` says. -/
def displacement (offsets : Array (Option Nat)) (stop : Nat) (target : Handle) :
    Except Fault Int :=
  match offsets[target.index]?.join with
  | some offset => .ok (offset - stop)
  | none => .error (.danglingTarget target)

/-- **Encode** one instruction of a body. -/
def encodePlaced (offsets : Array (Option Nat)) (placed : Placed) : Assembler (List UInt8) := do
  let stop := placed.offset + placed.instruction.width
  let relative ← (placed.instruction.mapLabels (displacement offsets stop) : Except Fault _)
  relative.encode placed.offset

/-- The largest code that can be written. -/
def maxCodeSize : Nat := 2147483647

/-- **Encode** a body, with tokens from a table. -/
def encode (b : Body) : Assembler (List UInt8) := do
  if !b.offsetsAreCurrent then throw .staleOffsets
  if maxCodeSize < b.codeSize then throw (.codeTooLarge b.codeSize)
  let offsets := b.offsets
  return (← b.code.mapM (encodePlaced offsets)).flatten

end Body

end Hotpatch
