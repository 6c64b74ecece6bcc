import Hotpatch.Binary.Layout

/-! # Type signatures

The types of parameters, locals and operands.

* **`TypeSig`** — a built-in type, a named type, or an array of a type.
* **`TypeSig.isValueType`** — whether a value has to be boxed to become an object.
* **`TypeSig.render`** — the type as shown in listings.
* **`TypeSig.write`**, **`TypeSig.read`** — a tag byte, then a name or an element type. -/

namespace Hotpatch

/-! ## (1) Types -/

/-- A **built-in** type: one that is named by its tag alone. -/
inductive Builtin where
  | void | bool | char | int8 | uint8 | int16 | uint16 | int32 | uint32 | int64 | uint64
  | float32 | float64 | string | nativeInt | object
deriving Repr, DecidableEq, Inhabited

/-- A **type signature**. -/
inductive TypeSig where
  | builtin (type : Builtin)
  /-- A value type, by its full name. -/
  | valueType (name : String)
  /-- A reference type, by its full name. -/
  | ofClass (name : String)
  /-- A one-dimensional array of a type. -/
  | array (element : TypeSig)
deriving Repr, DecidableEq, Inhabited

namespace Builtin

/-- All built-in types, in the order of their tags. -/
def all : List Builtin :=
  [void, bool, char, int8, uint8, int16, uint16, int32, uint32, int64, uint64, float32, float64,
    string, nativeInt, object]

/-- **Tag** of a built-in type. -/
def tag : Builtin → UInt8
  | void => 0x01
  | bool => 0x02
  | char => 0x03
  | int8 => 0x04
  | uint8 => 0x05
  | int16 => 0x06
  | uint16 => 0x07
  | int32 => 0x08
  | uint32 => 0x09
  | int64 => 0x0a
  | uint64 => 0x0b
  | float32 => 0x0c
  | float64 => 0x0d
  | string => 0x0e
  | nativeInt => 0x18
  | object => 0x1c

/-- The built-in type that has a tag. -/
def ofTag? (tag : UInt8) : Option Builtin :=
  all.find? (·.tag == tag)

/-- **Rendered** built-in type. -/
def render : Builtin → String
  | void => "void"
  | bool => "bool"
  | char => "char"
  | int8 => "int8"
  | uint8 => "uint8"
  | int16 => "int16"
  | uint16 => "uint16"
  | int32 => "int32"
  | uint32 => "uint32"
  | int64 => "int64"
  | uint64 => "uint64"
  | float32 => "float32"
  | float64 => "float64"
  | string => "string"
  | nativeInt => "native int"
  | object => "object"

/-- **Value type**: every built-in type but `void`, strings and objects. -/
def isValueType : Builtin → Bool
  | void | string | object => false
  | _ => true

end Builtin

namespace TypeSig

/-- The type of methods that return nothing. -/
abbrev void : TypeSig := builtin .void

/-- The type of strings. -/
abbrev string : TypeSig := builtin .string

/-- The type of truth values. -/
abbrev bool : TypeSig := builtin .bool

/-- The type of objects. -/
abbrev object : TypeSig := builtin .object

/-- **Void**: stands for no value at all. -/
def isVoid (t : TypeSig) : Bool :=
  t == void

/-- **Value type**: a value of it has to be boxed before it can be stored as an object. -/
def isValueType : TypeSig → Bool
  | builtin type => type.isValueType
  | valueType _ => true
  | ofClass _ => false
  | array _ => false

/-- **Rendered** type. -/
def render : TypeSig → String
  | builtin type => type.render
  | valueType name => "valuetype " ++ name
  | ofClass name => "class " ++ name
  | array element => element.render ++ "[]"

/-! ## (2) Layout -/

/-- The tag of a value type. -/
def valueTypeTag : UInt8 := 0x11

/-- The tag of a reference type. -/
def classTag : UInt8 := 0x12

/-- The tag of an array. -/
def arrayTag : UInt8 := 0x1d

/-- **Bytes** of a type: its tag, and the name or the element type that belongs to it. -/
def write : TypeSig → List UInt8
  | builtin type => [type.tag]
  | valueType name => valueTypeTag :: Binary.write name
  | ofClass name => classTag :: Binary.write name
  | array element => arrayTag :: element.write

/-- **Type read** from the front of some bytes. -/
def read : Reader TypeSig
  | [] => .error .unexpectedEnd
  | tag :: rest =>
    if tag = arrayTag then
      match read rest with
      | .ok (element, rest) => .ok (array element, rest)
      | .error fault => .error fault
    else if tag = valueTypeTag then
      (valueType <$> (Binary.read : Reader String)) rest
    else if tag = classTag then
      (ofClass <$> (Binary.read : Reader String)) rest
    else
      match Builtin.ofTag? tag with
      | some type => .ok (builtin type, rest)
      | none => .error (.unknownTypeTag tag)

instance : Binary TypeSig := ⟨write, read⟩

end TypeSig

end Hotpatch
