import Hotpatch.Text.Digits
import Hotpatch.Text.Printable

/-! # Quoted text

Text between double quotes, as operands, paths and lists of them appear in listings and messages.

* **`escape`** — the characters one character is written as.
* **`quoted`** — a whole text, escaped and put between quotes. -/

namespace Hotpatch.Text

/-- **Escape**: the quote, the backslash and the usual control characters have short forms, any
other character that is not printable is written by its number in hexadecimal, and all else stands
for itself. -/
def escape (c : Char) : String :=
  match c with
  | '\x00' => "\\0"
  | '\t' => "\\t"
  | '\n' => "\\n"
  | '\r' => "\\r"
  | '"' => "\\\""
  | '\\' => "\\\\"
  | c => if printable c then c.toString else "\\u\x7b" ++ hex c.toNat ++ "\x7d"

/-- **Quoted text**: the escaped characters between double quotes. -/
def quoted (text : String) : String :=
  "\"" ++ String.join (text.toList.map escape) ++ "\""

end Hotpatch.Text
