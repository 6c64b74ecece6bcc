/-! # Shortest decimal text of a binary float

A binary floating-point number, given by its bits, is rendered with the fewest decimal digits that
read back to the same number, always positionally and never with an exponent.

* **`BinaryFormat`** — the widths of the fraction and exponent fields; `single` and `double`.
* **`BinaryFormat.decode`** — the bits as a sign and a number `m · 2^q`, an infinity or a NaN.
* **`Magnitude.candidate`** — the point of a decimal grid that reads back to the number, if any.
* **`Magnitude.shortest`** — the candidate of the coarsest grid that has one.
* **`BinaryFormat.plainText`** — the rendered number. -/

namespace Hotpatch.Decimal

/-! ## (1) Binary numbers -/

/-- A **positive binary number** `m · 2^q`, together with whether its lower neighbour is only half
as far away as its upper one, which is so at the powers of two. -/
structure Magnitude where
  m : Nat
  q : Int
  closeBelow : Bool
deriving Repr, DecidableEq

/-- A **binary floating-point datum**. -/
inductive Datum where
  | nan
  | infinite (negative : Bool)
  | zero (negative : Bool)
  | finite (negative : Bool) (magnitude : Magnitude)
deriving Repr, DecidableEq

/-- A **binary interchange format**: the widths in bits of its fraction and exponent fields. -/
structure BinaryFormat where
  fractionBits : Nat
  exponentBits : Nat
deriving Repr, DecidableEq

namespace BinaryFormat

/-- The 32-bit format. -/
def single : BinaryFormat := ⟨23, 8⟩

/-- The 64-bit format. -/
def double : BinaryFormat := ⟨52, 11⟩

/-- **Decode** a bit pattern: an exponent field of all ones is an infinity or a NaN, one of all
zeros has no hidden bit, and any other adds the hidden bit. -/
def decode (format : BinaryFormat) (bits : Nat) : Datum :=
  let hidden := Nat.pow 2 format.fractionBits
  let fraction := bits % hidden
  let exponent := bits / hidden % Nat.pow 2 format.exponentBits
  let negative := bits / hidden / Nat.pow 2 format.exponentBits % 2 == 1
  let bias := Nat.pow 2 (format.exponentBits - 1)
  let lowest : Int := 2 - bias - format.fractionBits
  if exponent = Nat.pow 2 format.exponentBits - 1 then
    if fraction = 0 then .infinite negative else .nan
  else if exponent = 0 then
    if fraction = 0 then .zero negative else .finite negative ⟨fraction, lowest, false⟩
  else
    .finite negative
      ⟨hidden + fraction, lowest + exponent - 1, fraction == 0 && exponent > 1⟩

end BinaryFormat

/-! ## (2) Decimal grids

The numbers that read back to `m · 2^q` form an interval around it, reaching half way to its two
neighbours; the ends belong to it when `m` is even. All comparisons are made on natural numbers,
after scaling by a common power of two and of ten. -/

/-- A **decimal** `digits · 10^exponent`. -/
structure Plain where
  digits : Nat
  exponent : Int
deriving Repr, DecidableEq

namespace Magnitude

/-- **Candidate** on the grid of the multiples of `10^e`: of the two grid points next to the number,
the one that reads back to it, the nearer one if both do, and the upper one of two equally near. -/
def candidate (x : Magnitude) (e : Int) : Option Plain :=
  let scale := Nat.pow 2 (x.q - 2).toNat * Nat.pow 10 (-e).toNat
  let value := 4 * x.m * scale
  let low := (4 * x.m - if x.closeBelow then 1 else 2) * scale
  let high := (4 * x.m + 2) * scale
  let step := Nat.pow 10 e.toNat * Nat.pow 2 (2 - x.q).toNat
  let readsBack (p : Nat) : Bool :=
    if x.m % 2 = 0 then low ≤ p && p ≤ high else low < p && p < high
  let below := value / step
  let above := below + 1
  match readsBack (below * step), readsBack (above * step) with
  | true, true =>
    if value - below * step < above * step - value then some ⟨below, e⟩ else some ⟨above, e⟩
  | true, false => some ⟨below, e⟩
  | false, true => some ⟨above, e⟩
  | false, false => none

/-- **Scan** of the grids from `10^e` down, at most `fuel` of them. -/
def scan (x : Magnitude) : Nat → Int → Option Plain
  | 0, _ => none
  | fuel + 1, e =>
    match x.candidate e with
    | some plain => some plain
    | none => scan x fuel (e - 1)

/-- **Shortest decimal** that reads back: the candidate of the coarsest grid that has one. The scan
starts at a grid wider than the number and ends at the grid of `10^q` or of the units, on which the
number itself lies. -/
def shortest (x : Magnitude) : Plain :=
  let whole := x.m * Nat.pow 2 x.q.toNat / Nat.pow 2 (-x.q).toNat
  let start : Int := (Nat.toDigits 10 whole).length
  (x.scan (start.toNat + (-x.q).toNat + 1) start).getD ⟨0, 0⟩

end Magnitude

/-! ## (3) Rendering -/

/-- **Positional text** of a decimal: zeros fill the places up to the point on either side, and a
whole number has no point. -/
def Plain.text (p : Plain) : String :=
  let digits := Nat.toDigits 10 p.digits
  let places := (-p.exponent).toNat
  if 0 ≤ p.exponent then
    String.ofList (digits ++ List.replicate p.exponent.toNat '0')
  else if places < digits.length then
    String.ofList (digits.take (digits.length - places)) ++ "."
      ++ String.ofList (digits.drop (digits.length - places))
  else
    "0." ++ String.ofList (List.replicate (places - digits.length) '0' ++ digits)

namespace BinaryFormat

/-- **Plain text** of a bit pattern: a NaN has no sign, zero and the infinities keep theirs. -/
def plainText (format : BinaryFormat) (bits : Nat) : String :=
  let sign (negative : Bool) : String := if negative then "-" else ""
  match format.decode bits with
  | .nan => "NaN"
  | .infinite negative => sign negative ++ "inf"
  | .zero negative => sign negative ++ "0"
  | .finite negative magnitude => sign negative ++ magnitude.shortest.text

end BinaryFormat

example : BinaryFormat.single.plainText 0x3dcccccd = "0.1" := by decide +kernel
example : BinaryFormat.double.plainText 0xc004000000000000 = "-2.5" := by decide +kernel
example : BinaryFormat.double.plainText 0x4480f0cf064dd592 = "10000000000000000000000" := by
  decide +kernel

end Hotpatch.Decimal
