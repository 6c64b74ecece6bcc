import Hotpatch.Code.Body
import Hotpatch.Code.Form
import Hotpatch.Code.OffsetTable
import Hotpatch.Metadata.TokenTable

/-! # Decoded code

From bytes to a body. The bytes are cut into instructions from the front; after that every branch
target has to be the start of one of them.

* **`Instruction.read`** — the next instruction, over displacements.
* **`cutCode`** — all instructions with the offsets at which they started.
* **`DecodedCode`** — the body together with those offsets.
* **`decodeCode`** — the whole way.

The offsets of the body are recomputed, and may be smaller than those in the input, which need not
use the shortest forms. -/

namespace Hotpatch

namespace Instruction

/-- A token from the bytes, looked up. -/
def readToken (lookup : Token → Except Fault α) : Reader α := do
  lookup (← Binary.read)

/-- **Read the operand** of a form, and complete the instruction. -/
def readOperand (tokens : TokenTable) : Form → Reader (Instruction Int)
  | .complete instruction => return instruction
  | .slotByte op => return slot op (← Reader.byte).toUInt16
  | .slotWord op => return slot op (← Binary.read)
  | .constantByte => return ldcI4 (← (Binary.read : Reader Int8)).toInt32
  | .constantWord => return ldcI4 (← Binary.read)
  | .constantLong => return ldcI8 (← Binary.read)
  | .constantSingle => return ldcR4 (← Binary.read)
  | .constantDouble => return ldcR8 (← Binary.read)
  | .invoke op => return invoke op (← readToken tokens.method)
  | .typed op => return typed op (← readToken tokens.type)
  | .ldstr => return ldstr (← readToken tokens.string)
  | .branch .short condition =>
    return branch .short condition (← (Binary.read : Reader Int8)).toInt
  | .branch .long condition =>
    return branch .long condition (← (Binary.read : Reader Int32)).toInt
  | .switch => return switch ((← (Binary.read : Reader (List Int32))).map Int32.toInt)

/-- **Read an instruction** that starts at an offset, leaving its targets as displacements. It comes
with the number of bytes it took, which may be more than its shortest form needs. -/
def read (tokens : TokenTable) (source : Nat) : Reader (Instruction Int × Nat) := do
  let opcode ← Opcode.read
  match Form.ofOpcode? opcode with
  | some form =>
    let instruction ← readOperand tokens form
    return (instruction, opcodeWidth opcode + form.operandSize instruction)
  | none => Reader.fail (.unknownOpcode source opcode)

end Instruction

/-! ## (1) Cutting -/

/-- **Cut** bytes into at most so many instructions, behind those already in the table. The first
instruction that cannot be read is a fault. Targets become offsets, which may be anywhere. -/
def cutOnto (tokens : TokenTable) : Nat → OffsetTable (Instruction Int) → List UInt8 →
    Except Fault (OffsetTable (Instruction Int))
  | _, cut, [] => .ok cut
  | 0, _, _ :: _ => .error .unexpectedEnd
  | limit + 1, cut, bytes =>
    match Instruction.read tokens cut.total bytes with
    | .error fault => .error fault
    | .ok ((instruction, size), rest) =>
      let next : Int := cut.total + size
      cutOnto tokens limit (cut.push size (instruction.relabel (next + ·))) rest

/-- **Cut code**: the instructions of some bytes at the offsets where they start. Each takes at least
one byte, so there are no more of them than bytes. -/
def cutCode (tokens : TokenTable) (bytes : List UInt8) :
    Except Fault (OffsetTable (Instruction Int)) :=
  cutOnto tokens bytes.length .empty bytes

/-! ## (2) Targets -/

/-- **Resolve a target**: the position of the instruction that starts there. -/
def resolveTarget (cut : OffsetTable (Instruction Int)) (source : Nat) (target : Int) :
    Except Fault Nat :=
  if target < 0 ∨ cut.total ≤ target then .error (.branchOutOfBounds source target)
  else
    match (cut.lookup target.toNat).index? with
    | some index => .ok index
    | none => .error (.branchIntoInstruction source target.toNat)

/-- **Decoded code**: a body, and the instructions it comes from at the offsets they had. -/
structure DecodedCode where
  body : Body
  cut : OffsetTable (Instruction Int)
deriving Repr, Inhabited

/-- The instruction that **started at** an offset of the input. -/
def DecodedCode.handleAt? (d : DecodedCode) (offset : Nat) : Option Handle :=
  (d.cut.lookup offset).index?.bind d.body.handleAt?

/-- **Decode** bytes into a body with current offsets. -/
def decodeCode (tokens : TokenTable) (bytes : List UInt8) : Except Fault DecodedCode := do
  let cut ← cutCode tokens bytes
  let instructions ← cut.entries.toList.mapM fun (source, instruction) =>
    instruction.mapLabels (resolveTarget cut source)
  return ⟨← Body.ofInstructions instructions, cut⟩

end Hotpatch
