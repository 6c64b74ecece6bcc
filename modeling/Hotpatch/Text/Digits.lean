/-! # Digits

Numbers as rendered in messages and listings: hexadecimal with a least width, and decimal integers.

* **`hex`** — lower-case hexadecimal, no padding.
* **`paddedHex`** — lower-case hexadecimal, padded with zeros to a least width.
* **`offset`** — a byte offset into method code, `IL_` and at least four hexadecimal digits. -/

namespace Hotpatch.Text

/-- **Hexadecimal** digits of a number, lower case and without leading zeros (`0` for zero). -/
def hex (n : Nat) : String :=
  String.ofList (Nat.toDigits 16 n)

/-- **Padded hexadecimal**: at least `width` digits, filled up with zeros on the left. -/
def paddedHex (width n : Nat) : String :=
  let digits := Nat.toDigits 16 n
  String.ofList (List.replicate (width - digits.length) '0' ++ digits)

/-- **Offset text**: `IL_` and the offset in at least four hexadecimal digits. -/
def offset (n : Nat) : String :=
  "IL_" ++ paddedHex 4 n

/-- **Decimal text** of an integer, with a minus sign when negative. -/
def integer (i : Int) : String :=
  if i < 0 then "-" ++ toString i.natAbs else toString i.natAbs

/-- **List text**: the items between square brackets, separated by a comma and a blank. -/
def list (items : List String) : String :=
  "[" ++ String.intercalate ", " items ++ "]"

example : paddedHex 4 0x12e = "012e" := by decide +kernel
example : offset 65536 = "IL_10000" := by decide +kernel
example : integer (-7) = "-7" := by decide +kernel
example : list ["a", "b"] = "[a, b]" := by decide +kernel

end Hotpatch.Text
