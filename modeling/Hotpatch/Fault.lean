import Hotpatch.Code.Handle
import Hotpatch.Files.FileError
import Hotpatch.Files.Path
import Hotpatch.Metadata.Token
import Hotpatch.Text.Digits
import Hotpatch.Text.Quoted

/-! # Faults

What can be wrong with a module: with its bytes, with its code, or with what it refers to.

* **`Fault`** — one constructor per cause, carrying what the message tells.
* **`Fault.message`** — the wording, in one place.
* **`Fault.cause?`** — the wording of the error below, where there is one. -/

namespace Hotpatch

/-- A **fault** of a module. Offsets count the bytes of a method's code. -/
inductive Fault where
  /-- A file could not be read or written. -/
  | io (error : FileError)
  /-- The first four bytes are not the expected ones. -/
  | badMagic (expected found : List UInt8)
  | unsupportedVersion (version : UInt16)
  /-- The bytes ended in the middle of a structure. -/
  | unexpectedEnd
  | invalidUtf8
  | unknownOpcode (offset : Nat) (opcode : UInt16)
  | unknownTypeTag (tag : UInt8)
  /-- The token names no row of the tables. -/
  | badToken (token : Token)
  /-- A branch target lies in the middle of an instruction. -/
  | branchIntoInstruction (source target : Nat)
  /-- A branch target lies outside of the code. -/
  | branchOutOfBounds (source : Nat) (target : Int)
  /-- The written form of a branch does not reach its target. -/
  | branchOutOfRange (source : Nat) (displacement : Int)
  | codeTooLarge (size : Nat)
  /-- A branch target is no instruction of the body. -/
  | danglingTarget (target : Handle)
  /-- A handle is no instruction of the body. -/
  | unknownInstruction (handle : Handle)
  /-- The method has a body without instructions. -/
  | emptyBody
  /-- The method has more parameters than there are argument slots. -/
  | tooManyParameters (count : Nat)
  /-- Instructions were added after the offsets were computed. -/
  | staleOffsets
  /-- A referenced module is in none of the directories searched. -/
  | unresolvedReference (reference : String) (searched : List Path)
  /-- A sequence point is attached to no instruction. -/
  | badSequencePoint (typeIndex methodIndex offset : Nat)
deriving Repr, DecidableEq, Inhabited

namespace Fault

/-- **Bytes text**: a list of bytes, each of two hexadecimal digits. -/
def bytesText (bytes : List UInt8) : String :=
  Text.list (bytes.map fun b => Text.paddedHex 2 b.toNat)

/-- **Message** of a fault. -/
def message : Fault → String
  | io error => "I/O error: " ++ error.message
  | badMagic expected found =>
    "bad magic " ++ bytesText found ++ " (expected " ++ bytesText expected ++ ")"
  | unsupportedVersion version => "unsupported version " ++ toString version.toNat
  | unexpectedEnd => "unexpected end of input"
  | invalidUtf8 => "string is not valid UTF-8"
  | unknownOpcode offset opcode =>
    "unknown opcode 0x" ++ Text.hex opcode.toNat ++ " at " ++ Text.offset offset
  | unknownTypeTag tag => "unknown type signature tag 0x" ++ Text.paddedHex 2 tag.toNat
  | badToken token => "bad metadata token 0x" ++ Text.paddedHex 8 token.word.toNat
  | branchIntoInstruction source target =>
    "branch at " ++ Text.offset source ++ " lands inside the instruction at " ++ Text.offset target
  | branchOutOfBounds source target =>
    "branch at " ++ Text.offset source ++ " targets offset " ++ Text.integer target
      ++ " outside of the method"
  | branchOutOfRange source displacement =>
    "short branch at " ++ Text.offset source ++ " cannot reach displacement "
      ++ Text.integer displacement
  | codeTooLarge size => "method code is too large (" ++ toString size ++ " bytes)"
  | danglingTarget target => "branch target " ++ target.text ++ " is not part of the body"
  | unknownInstruction handle => handle.text ++ " is not part of the body"
  | emptyBody => "method body has no instructions"
  | tooManyParameters count => toString count ++ " parameters do not fit in the argument slots"
  | staleOffsets => "instruction offsets were not recomputed"
  | unresolvedReference reference searched =>
    "cannot resolve referenced module '" ++ reference ++ "' (searched "
      ++ Text.list (searched.map fun p => Text.quoted p.text) ++ ")"
  | badSequencePoint typeIndex methodIndex offset =>
    "sequence point at " ++ Text.offset offset ++ " of method " ++ toString typeIndex ++ "/"
      ++ toString methodIndex ++ " has no instruction"

/-- **Cause** below a fault: the message of the file error, if it comes from one. -/
def cause? : Fault → Option String
  | io error => some error.message
  | _ => none

/-- **Fault of a file error**: an input that ended too early counts as one that was cut short. -/
def ofFileError : FileError → Fault
  | .endOfFile => unexpectedEnd
  | error => io error

end Fault

end Hotpatch
