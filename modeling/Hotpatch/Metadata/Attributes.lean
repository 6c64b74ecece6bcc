import Hotpatch.Binary.Layout

/-! # Attributes

The attribute words of types and methods. A word is kept as it is read, bits without a name
included.

* **`TypeAttributes.flags`**, **`MethodAttributes.flags`** — the named bits.
* **`TypeAttributes.contains`**, **`MethodAttributes.contains`** — whether all bits of a flag are set. -/

namespace Hotpatch

/-- The **attributes** of a type. -/
structure TypeAttributes where
  bits : UInt32
deriving Repr, DecidableEq, Inhabited

/-- The **attributes** of a method. -/
structure MethodAttributes where
  bits : UInt16
deriving Repr, DecidableEq, Inhabited

namespace TypeAttributes

/-- **Contains**: all bits of `flag` are set. -/
def contains (a : TypeAttributes) (flag : UInt32) : Bool :=
  a.bits &&& flag == flag

/-- The **named bits** of a type's attributes. -/
def flags : List (String × UInt32) :=
  [("PUBLIC", 0x00000001), ("NESTED_PUBLIC", 0x00000002), ("NESTED_PRIVATE", 0x00000003),
    ("NESTED_FAMILY", 0x00000004), ("NESTED_ASSEMBLY", 0x00000005),
    ("NESTED_FAM_AND_ASSEM", 0x00000006), ("NESTED_FAM_OR_ASSEM", 0x00000007),
    ("SEQUENTIAL_LAYOUT", 0x00000008), ("EXPLICIT_LAYOUT", 0x00000010),
    ("INTERFACE", 0x00000020), ("ABSTRACT", 0x00000080), ("SEALED", 0x00000100),
    ("SPECIAL_NAME", 0x00000400), ("RT_SPECIAL_NAME", 0x00000800), ("IMPORT", 0x00001000),
    ("SERIALIZABLE", 0x00002000), ("WINDOWS_RUNTIME", 0x00004000), ("UNICODE_CLASS", 0x00010000),
    ("AUTO_CLASS", 0x00020000), ("HAS_SECURITY", 0x00040000), ("BEFORE_FIELD_INIT", 0x00100000),
    ("FORWARDER", 0x00200000), ("CUSTOM_FORMAT_MASK", 0x00c00000), ("UNASSIGNED", 0xff088240)]

/-- The names of the flags that are contained, in the order of the table. -/
def names (a : TypeAttributes) : List String :=
  (flags.filter fun flag => a.contains flag.2).map (·.1)

/-- The attributes of a type that everyone may use. -/
def visible : TypeAttributes := ⟨0x00000001⟩

instance : Binary TypeAttributes where
  write a := Binary.write a.bits
  read := return ⟨← Binary.read⟩

end TypeAttributes

namespace MethodAttributes

/-- **Contains**: all bits of `flag` are set. -/
def contains (a : MethodAttributes) (flag : UInt16) : Bool :=
  a.bits &&& flag == flag

/-- The flag of methods that are not called on an object. -/
def staticFlag : UInt16 := 0x0010

/-- The **named bits** of a method's attributes. -/
def flags : List (String × UInt16) :=
  [("PRIVATE", 0x0001), ("FAM_AND_ASSEM", 0x0002), ("ASSEMBLY", 0x0003), ("FAMILY", 0x0004),
    ("FAM_OR_ASSEM", 0x0005), ("PUBLIC", 0x0006), ("UNMANAGED_EXPORT", 0x0008),
    ("STATIC", staticFlag), ("FINAL", 0x0020), ("VIRTUAL", 0x0040), ("HIDE_BY_SIG", 0x0080),
    ("NEW_SLOT", 0x0100), ("CHECK_ACCESS_ON_OVERRIDE", 0x0200), ("ABSTRACT", 0x0400),
    ("SPECIAL_NAME", 0x0800), ("RT_SPECIAL_NAME", 0x1000), ("PINVOKE_IMPL", 0x2000),
    ("HAS_SECURITY", 0x4000), ("REQUIRE_SEC_OBJECT", 0x8000)]

/-- The names of the flags that are contained, in the order of the table. -/
def names (a : MethodAttributes) : List String :=
  (flags.filter fun flag => a.contains flag.2).map (·.1)

instance : Binary MethodAttributes where
  write a := Binary.write a.bits
  read := return ⟨← Binary.read⟩

end MethodAttributes

end Hotpatch
