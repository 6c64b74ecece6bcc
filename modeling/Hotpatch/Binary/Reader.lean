import Hotpatch.Fault

/-! # Readers

Reading a value from the front of a list of bytes.

* **`Reader`** — takes bytes and gives a value and the bytes left, or a fault.
* **`Reader.take`** — the next bytes, as many as asked for; too few left is `unexpectedEnd`.
* **`Reader.times`** — the same reader a number of times.
* **`ofLittleEndian`**, **`littleEndian`** — numbers as bytes, the least significant byte first. -/

namespace Hotpatch

/-- A **reader** of a value from the front of a list of bytes. -/
abbrev Reader := StateT (List UInt8) (Except Fault)

/-! ## (1) Numbers as bytes -/

/-- **Little-endian** bytes of a number, the least significant first. What does not fit into the
width is dropped. -/
def littleEndian : Nat → Nat → List UInt8
  | 0, _ => []
  | width + 1, n => UInt8.ofNat n :: littleEndian width (n / 256)

/-- **Number** that has the given little-endian bytes. -/
def ofLittleEndian : List UInt8 → Nat
  | [] => 0
  | b :: rest => b.toNat + 256 * ofLittleEndian rest

/-! ## (2) Readers -/

namespace Reader

/-- **Fail** with a fault. -/
def fail (fault : Fault) : Reader α :=
  throw fault

/-- **Take** the next bytes. -/
def take (count : Nat) : Reader (List UInt8) := fun bytes =>
  let (front, rest) := bytes.splitAt count
  if front.length = count then .ok (front, rest) else .error .unexpectedEnd

/-- The next byte. -/
def byte : Reader UInt8
  | [] => .error .unexpectedEnd
  | b :: rest => .ok (b, rest)

/-- **Unsigned** number of a width in bytes. -/
def unsigned (width : Nat) : Reader Nat := do
  return ofLittleEndian (← take width)

/-- The values read so far in reverse, and `count` more. -/
def timesOnto (item : Reader α) : Nat → List α → Reader (List α)
  | 0, done => pure done.reverse
  | count + 1, done => do
    let value ← item
    timesOnto item count (value :: done)

/-- **Times**: one value after another, the first fault wins. -/
def times (count : Nat) (item : Reader α) : Reader (List α) :=
  timesOnto item count []

end Reader

end Hotpatch
