import Hotpatch.Binary.Layout
import Hotpatch.Proofs.Effects
import Mathlib.Algebra.GroupWithZero.Nat

/-! # Reading back what was written

What readers make of written bytes, and what they can give at all.

* **`Reader.Reads`** — a reader takes exactly some bytes from the front of any others, and gives a
  value.
* **`Reader.Yields`** — the values a reader can give.
* **`Bounded`** — the values whose lengths fit into the four bytes written for each.
* **`LawfulBinary`** — layouts whose bounded values are read back, and from which no others are
  read. -/

namespace Hotpatch

open Binary (write read)

variable {α β : Type}

/-! ## (1) Numbers as bytes -/

/-- A number is as many bytes as its width says. -/
@[simp] theorem length_littleEndian (width n : Nat) : (littleEndian width n).length = width := by
  induction width generalizing n with
  | zero => rfl
  | succ width ih => rw [littleEndian, List.length_cons, ih]

/-- A number that fits into the width is the number of its bytes. -/
@[simp] theorem ofLittleEndian_littleEndian {width n : Nat} (fits : n < 256 ^ width) :
    ofLittleEndian (littleEndian width n) = n := by
  -- The digits are taken from below, so the number is what changes along the induction.
  induction width generalizing n with
  | zero =>
    rw [Nat.pow_zero] at fits
    rw [littleEndian, ofLittleEndian]
    omega
  | succ width ih =>
    have rest : n / 256 < 256 ^ width := by
      rw [Nat.pow_succ] at fits
      exact Nat.div_lt_of_lt_mul (by omega)
    rw [littleEndian, ofLittleEndian, ih rest, UInt8.toNat_ofNat']
    exact Nat.mod_add_div n 256

/-- The number of some bytes fits into as many. -/
theorem ofLittleEndian_lt (bytes : List UInt8) : ofLittleEndian bytes < 256 ^ bytes.length := by
  induction bytes with
  | nil => exact Nat.one_pos
  | cons b rest ih =>
    have digit := b.toNat_lt
    rw [ofLittleEndian, List.length_cons, Nat.pow_succ]
    omega

/-- The bytes of the number of some bytes are these. -/
@[simp] theorem littleEndian_ofLittleEndian (bytes : List UInt8) :
    littleEndian bytes.length (ofLittleEndian bytes) = bytes := by
  induction bytes with
  | nil => rfl
  | cons b rest ih =>
    have low : UInt8.ofNat (b.toNat + 256 * ofLittleEndian rest) = b := by
      rw [← UInt8.toNat_inj, UInt8.toNat_ofNat', Nat.add_mul_mod_self_left]
      exact Nat.mod_eq_of_lt b.toNat_lt
    have high : (b.toNat + 256 * ofLittleEndian rest) / 256 = ofLittleEndian rest := by
      have digit := b.toNat_lt
      omega
    rw [ofLittleEndian, List.length_cons, littleEndian, low, high, ih]

/-! ## (2) Readers -/

namespace Reader

/-- A reader **reads** some bytes as a value: from the front of any bytes it takes exactly these. -/
def Reads (reader : Reader α) (bytes : List UInt8) (value : α) : Prop :=
  ∀ rest, reader (bytes ++ rest) = .ok (value, rest)

/-- A reader **yields** a value if it gives it on some bytes. -/
def Yields (reader : Reader α) (value : α) : Prop :=
  ∃ bytes rest, reader bytes = .ok (value, rest)

variable {reader : Reader α} {next : α → Reader β} {bytes back : List UInt8} {value : α}
  {last : β}

/-- Nothing is read for a value that is only returned. -/
@[simp] theorem Reads.pure (value : α) : (Pure.pure value : Reader α).Reads [] value := fun _ => rfl

/-- With nothing behind them, all of the bytes are taken. -/
theorem Reads.alone (reads : reader.Reads bytes value) : reader bytes = .ok (value, []) := by
  have all := reads []
  rwa [List.append_nil] at all

/-- Bytes side by side are read one after the other. -/
theorem Reads.bind (front : reader.Reads bytes value) (behind : (next value).Reads back last) :
    (reader >>= next).Reads (bytes ++ back) last := by
  intro rest
  rw [List.append_assoc, Step.bind_of_ok (front _)]
  exact behind rest

/-- What is done to the value read last reads nothing more. -/
theorem Reads.bind_pure (front : reader.Reads bytes value) (f : α → β) :
    (reader >>= fun value => Pure.pure (f value)).Reads bytes (f value) := by
  intro rest
  rw [Step.bind_of_ok (front rest)]
  rfl

/-- A mapped reader reads the same bytes. -/
theorem Reads.map (front : reader.Reads bytes value) (f : α → β) :
    (f <$> reader).Reads bytes (f value) :=
  fun rest => Step.map_of_ok (front rest)

/-- A chain yields what its rest does after a value that its first link yields. -/
theorem Yields.of_bind (yields : (reader >>= next).Yields last) :
    ∃ value, reader.Yields value ∧ (next value).Yields last := by
  obtain ⟨bytes, rest, whole⟩ := yields
  obtain ⟨value, between, first, behind⟩ := Step.bind_eq_ok_iff.mp whole
  exact ⟨value, ⟨bytes, between, first⟩, ⟨between, rest, behind⟩⟩

/-- A value that is only returned is all there is. -/
theorem Yields.of_pure {other : α} (yields : (Pure.pure value : Reader α).Yields other) :
    value = other := by
  obtain ⟨bytes, rest, whole⟩ := yields
  exact congrArg Prod.fst (Except.ok.inj whole)

/-- An attempt yields what it succeeds with. -/
theorem Yields.of_attempt {x : Except Fault α} (yields : (liftM x : Reader α).Yields value) :
    x = .ok value := by
  obtain ⟨bytes, rest, whole⟩ := yields
  cases x with
  | error fault => cases whole
  | ok other => exact congrArg (Except.ok ·.1) (Except.ok.inj whole)

/-- Nothing comes out of a failure. -/
@[simp] theorem not_yields_fail {fault : Fault} : ¬ (fail fault : Reader α).Yields value := by
  rintro ⟨bytes, rest, whole⟩
  cases whole

/-! ## (3) Bytes and lists -/

/-- The next bytes are read as they are. -/
@[simp] theorem reads_take (bytes : List UInt8) : (take bytes.length).Reads bytes bytes := by
  intro rest
  rw [take, List.splitAt_eq, List.take_left, List.drop_left]
  exact if_pos rfl

/-- Taking bytes yields as many as asked for. -/
theorem length_of_yields_take {count : Nat} (yields : (take count).Yields bytes) :
    bytes.length = count := by
  obtain ⟨whole, rest, taken⟩ := yields
  rw [take, List.splitAt_eq] at taken
  dsimp only at taken
  split at taken
  · next enough =>
    obtain ⟨rfl, -⟩ := Prod.mk.inj (Except.ok.inj taken)
    exact enough
  · cases taken

/-- A byte is read as it is. -/
@[simp] theorem reads_byte (b : UInt8) : byte.Reads [b] b := fun _ => rfl

/-- A number that fits into the width is read back. -/
theorem reads_unsigned {width n : Nat} (fits : n < 256 ^ width) :
    (unsigned width).Reads (littleEndian width n) n := by
  have front := reads_take (littleEndian width n)
  rw [length_littleEndian] at front
  have number := front.bind_pure ofLittleEndian
  rwa [ofLittleEndian_littleEndian fits] at number

/-- A number that is read fits into the width. -/
theorem lt_of_yields_unsigned {width n : Nat} (yields : (unsigned width).Yields n) :
    n < 256 ^ width := by
  obtain ⟨bytes, taken, returned⟩ := yields.of_bind
  rw [← returned.of_pure, ← length_of_yields_take taken]
  exact ofLittleEndian_lt bytes

/-- Values one after the other are read behind those that are done. -/
private theorem reads_timesOnto {item : Reader α} {chunks : List (List UInt8)} {values : List α}
    (each : List.Forall₂ item.Reads chunks values) (done : List α) :
    (timesOnto item values.length done).Reads chunks.flatten (done.reverse ++ values) := by
  -- What is done so far is kept in reverse, in front of what the induction is about.
  induction each generalizing done with
  | nil =>
    rw [List.append_nil]
    exact Reads.pure _
  | @cons chunk value chunks values first others ih =>
    have behind := ih (value :: done)
    rw [List.reverse_cons, List.append_assoc, List.singleton_append] at behind
    exact first.bind behind

/-- **Reading a list**: chunks that are read as values are read as the list of them. -/
theorem reads_times {item : Reader α} {chunks : List (List UInt8)} {values : List α}
    (each : List.Forall₂ item.Reads chunks values) :
    (times values.length item).Reads chunks.flatten values :=
  reads_timesOnto each []

/-- Reading a list yields values that its reader yields, behind those that are done. -/
private theorem yields_timesOnto {item : Reader α} {count : Nat} {done values : List α}
    (yields : (timesOnto item count done).Yields values) :
    ∃ added, values = done.reverse ++ added ∧ added.length = count
      ∧ ∀ value ∈ added, item.Yields value := by
  induction count generalizing done with
  | zero => exact ⟨[], by rw [List.append_nil, ← yields.of_pure], rfl, nofun⟩
  | succ count ih =>
    obtain ⟨value, first, others⟩ := yields.of_bind
    obtain ⟨added, rfl, length, each⟩ := ih others
    -- The value read first is the last of those that are done.
    refine ⟨value :: added, ?_, by rw [List.length_cons, length], ?_⟩
    · rw [List.reverse_cons, List.append_assoc, List.singleton_append]
    · exact List.forall_mem_cons.mpr ⟨first, each⟩

/-- A list that is read has as many values as asked for, each of which its reader yields. -/
theorem Yields.of_times {item : Reader α} {count : Nat} {values : List α}
    (yields : (times count item).Yields values) :
    values.length = count ∧ ∀ value ∈ values, item.Yields value := by
  obtain ⟨added, whole, length, each⟩ := yields_timesOnto yields
  rw [List.reverse_nil, List.nil_append] at whole
  exact whole ▸ ⟨length, each⟩

end Reader

/-- A length below the limit is read back. -/
theorem reads_length {n : Nat} (fits : n < 4294967296) : readLength.Reads (writeLength n) n :=
  Reader.reads_unsigned fits

/-- A length that is read is below the limit. -/
theorem lt_of_yields_length {n : Nat} (yields : readLength.Yields n) : n < 4294967296 :=
  Reader.lt_of_yields_unsigned yields

/-- Bytes are read back, if their number is below the limit. -/
theorem reads_bytes {bytes : List UInt8} (fits : bytes.length < 4294967296) :
    readBytes.Reads (writeBytes bytes) bytes :=
  (reads_length fits).bind (Reader.reads_take bytes)

/-- The number of bytes read behind a length is below the limit. -/
theorem length_lt_of_yields_bytes {bytes : List UInt8} (yields : readBytes.Yields bytes) :
    bytes.length < 4294967296 := by
  obtain ⟨count, length, taken⟩ := yields.of_bind
  rw [Reader.length_of_yields_take taken]
  exact lt_of_yields_length length

/-- The expected four bytes are accepted. -/
theorem reads_magic {expected : List UInt8} (four : expected.length = 4) :
    (readMagic expected).Reads expected () := by
  intro rest
  have front := Reader.reads_take expected rest
  rw [four] at front
  refine (Step.bind_of_ok front).trans ?_
  rw [if_neg (not_not_intro rfl)]
  rfl

/-! ## (4) Lawful layouts -/

/-- **Bounded** values of a type: those whose strings and lists are not too long to be written. -/
class Bounded (α : Type) where
  /-- All lengths in the value fit into four bytes. -/
  Fits : α → Prop

open Bounded (Fits)

/-- A **lawful layout**: it reads back what it wrote, and reads nothing that could not be written. -/
class LawfulBinary (α : Type) [Binary α] [Bounded α] : Prop where
  reads_write : ∀ value : α, Fits value → (read : Reader α).Reads (write value) value
  fits_of_yields : ∀ value : α, (read : Reader α).Yields value → Fits value

export LawfulBinary (reads_write fits_of_yields)

section Numbers

/-- A truth value has no lengths in it. -/
instance : Bounded Bool := ⟨fun _ => True⟩

instance : Bounded UInt8 := ⟨fun _ => True⟩

instance : Bounded UInt16 := ⟨fun _ => True⟩

instance : Bounded UInt32 := ⟨fun _ => True⟩

instance : Bounded UInt64 := ⟨fun _ => True⟩

instance : Bounded Int8 := ⟨fun _ => True⟩

instance : Bounded Int32 := ⟨fun _ => True⟩

instance : Bounded Int64 := ⟨fun _ => True⟩

instance : LawfulBinary Bool where
  reads_write b _ := by
    cases b with
    | false => exact (Reader.reads_byte 0).map (· != 0)
    | true => exact (Reader.reads_byte 1).map (· != 0)
  fits_of_yields _ _ := trivial

instance : LawfulBinary UInt8 where
  reads_write b _ := Reader.reads_byte b
  fits_of_yields _ _ := trivial

instance : LawfulBinary UInt16 where
  reads_write n _ := by
    have number := (Reader.reads_unsigned (show n.toNat < 256 ^ 2 from n.toNat_lt)).map UInt16.ofNat
    rwa [UInt16.ofNat_toNat] at number
  fits_of_yields _ _ := trivial

instance : LawfulBinary UInt32 where
  reads_write n _ := by
    have number := (Reader.reads_unsigned (show n.toNat < 256 ^ 4 from n.toNat_lt)).map UInt32.ofNat
    rwa [UInt32.ofNat_toNat] at number
  fits_of_yields _ _ := trivial

instance : LawfulBinary UInt64 where
  reads_write n _ := by
    have number := (Reader.reads_unsigned (show n.toNat < 256 ^ 8 from n.toNat_lt)).map UInt64.ofNat
    rwa [UInt64.ofNat_toNat] at number
  fits_of_yields _ _ := trivial

instance : LawfulBinary Int8 where
  reads_write n _ := (reads_write n.toUInt8 trivial).map UInt8.toInt8
  fits_of_yields _ _ := trivial

instance : LawfulBinary Int32 where
  reads_write n _ := (reads_write n.toUInt32 trivial).map UInt32.toInt32
  fits_of_yields _ _ := trivial

instance : LawfulBinary Int64 where
  reads_write n _ := (reads_write n.toUInt64 trivial).map UInt64.toInt64
  fits_of_yields _ _ := trivial

end Numbers

/-- A string fits if its UTF-8 form does. -/
instance : Bounded String := ⟨fun s => s.utf8ByteSize < 4294967296⟩

/-- A list fits if its length does, and all its members. -/
instance [Bounded α] : Bounded (List α) :=
  ⟨fun xs => xs.length < 4294967296 ∧ ∀ x ∈ xs, Fits x⟩

instance : LawfulBinary String where
  reads_write s fits := by
    have valid : String.fromUTF8? ⟨⟨s.toUTF8.data.toList⟩⟩ = some s := dif_pos s.isValidUTF8
    have length : s.toUTF8.data.toList.length < 4294967296 := fits
    intro rest
    refine (Step.bind_of_ok (reads_bytes length rest)).trans ?_
    rw [valid]
    rfl
  fits_of_yields s yields := by
    obtain ⟨bytes, read, decoded⟩ := yields.of_bind
    split at decoded
    · next s' valid =>
      obtain rfl := decoded.of_pure
      rw [String.fromUTF8?] at valid
      split at valid
      · obtain rfl := Option.some.inj valid
        exact length_lt_of_yields_bytes read
      · cases valid
    · exact absurd decoded Reader.not_yields_fail

instance [Binary α] [Bounded α] [LawfulBinary α] : LawfulBinary (List α) where
  reads_write xs fits := by
    have each : List.Forall₂ (read : Reader α).Reads (xs.map write) xs := by
      rw [List.forall₂_map_left_iff, List.forall₂_same]
      exact fun x mem => reads_write x (fits.2 x mem)
    exact (reads_length fits.1).bind (Reader.reads_times each)
  fits_of_yields xs yields := by
    obtain ⟨count, length, values⟩ := yields.of_bind
    obtain ⟨same, each⟩ := values.of_times
    refine ⟨same ▸ lt_of_yields_length length, fun x mem => fits_of_yields x (each x mem)⟩

end Hotpatch
