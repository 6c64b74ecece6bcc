import Hotpatch.Binary.Reader

/-! # Binary layouts

How values are laid out in a module image. Numbers are little endian, a truth value is one byte,
and a string or a list has its length in front, in four bytes.

* **`Binary`** — the class of types with a layout: `write` gives the bytes, `read` takes them back.
* **`readMagic`** — the four bytes a file starts with. -/

namespace Hotpatch

/-- **Binary** layout of a type. -/
class Binary (α : Type) where
  /-- The bytes of a value. -/
  write : α → List UInt8
  /-- The value at the front of some bytes. -/
  read : Reader α

open Binary (write read)

/-! ## (1) Numbers -/

instance : Binary UInt8 where
  write b := [b]
  read := Reader.byte

instance : Binary UInt16 where
  write n := littleEndian 2 n.toNat
  read := UInt16.ofNat <$> Reader.unsigned 2

instance : Binary UInt32 where
  write n := littleEndian 4 n.toNat
  read := UInt32.ofNat <$> Reader.unsigned 4

instance : Binary UInt64 where
  write n := littleEndian 8 n.toNat
  read := UInt64.ofNat <$> Reader.unsigned 8

instance : Binary Int8 where
  write n := write n.toUInt8
  read := UInt8.toInt8 <$> read

instance : Binary Int32 where
  write n := write n.toUInt32
  read := UInt32.toInt32 <$> read

instance : Binary Int64 where
  write n := write n.toUInt64
  read := UInt64.toInt64 <$> read

/-- A truth value is written as one or zero; any byte but zero is read as true. -/
instance : Binary Bool where
  write b := [if b then 1 else 0]
  read := (· != 0) <$> Reader.byte

/-! ## (2) Lengths, strings and lists -/

/-- **Length** in front of a string or list: four bytes. -/
def writeLength (n : Nat) : List UInt8 :=
  littleEndian 4 n

/-- Read a length. -/
def readLength : Reader Nat :=
  Reader.unsigned 4

/-- **Bytes** with their length in front. -/
def writeBytes (bytes : List UInt8) : List UInt8 :=
  writeLength bytes.length ++ bytes

/-- Read bytes that have their length in front. -/
def readBytes : Reader (List UInt8) := do
  Reader.take (← readLength)

/-- A string is written as the length of its UTF-8 form and that form. -/
instance : Binary String where
  write s := writeBytes s.toUTF8.data.toList
  read := do
    match String.fromUTF8? ⟨⟨← readBytes⟩⟩ with
    | some s => return s
    | none => Reader.fail .invalidUtf8

instance [Binary α] : Binary (List α) where
  write xs := writeLength xs.length ++ xs.flatMap write
  read := do Reader.times (← readLength) read

/-! ## (3) Magic -/

/-- **Magic**: the file has to start with the four expected bytes. -/
def readMagic (expected : List UInt8) : Reader Unit := do
  let found ← Reader.take 4
  if found ≠ expected then Reader.fail (.badMagic expected found)

end Hotpatch
