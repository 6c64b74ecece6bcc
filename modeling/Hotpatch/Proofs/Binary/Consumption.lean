import Hotpatch.Binary.Layout
import Hotpatch.Proofs.Effects

/-! # What readers take

How many bytes a reader takes from the front, and the faults it can have.

* **`Reader.Takes`** — what is taken is related to what is read; `Takes.bind` puts the links of a chain
  together.
* **`Reader.Spans`** — as many bytes are taken, whatever is read.
* **`Reader.Faults`** — all faults of a reader have a property.
* **`takes_times`** — a list takes as many bytes as its members. -/

namespace Hotpatch

variable {α β : Type}

namespace Reader

/-- A reader **takes** bytes that are related to what it gives: the others are left as they are. -/
def Takes (reader : Reader α) (related : List UInt8 → α → Prop) : Prop :=
  ∀ bytes value rest, reader bytes = .ok (value, rest) →
    ∃ front, bytes = front ++ rest ∧ related front value

/-- A reader **spans** a number of bytes if it takes so many, whatever it gives. -/
def Spans (reader : Reader α) (size : Nat) : Prop :=
  reader.Takes fun front _ => front.length = size

/-- The **faults** of a reader have a property. -/
def Faults (reader : Reader α) (allowed : Fault → Prop) : Prop :=
  ∀ bytes fault, reader bytes = .error fault → allowed fault

variable {reader : Reader α} {next : α → Reader β} {related : List UInt8 → α → Prop}
  {after : List UInt8 → β → Prop} {allowed : Fault → Prop}

/-! ## (1) What is taken -/

/-- A value that is only returned takes nothing. -/
theorem takes_pure {value : α} (holds : related [] value) : (pure value : Reader α).Takes related := by
  intro bytes value' rest done
  obtain ⟨rfl, rfl⟩ := Prod.mk.inj (Except.ok.inj done)
  exact ⟨[], rfl, holds⟩

/-- **A chain takes** what its first link does, and then what its rest does. -/
theorem Takes.bind (first : reader.Takes related)
    (rest : ∀ value, (next value).Takes fun back last =>
      ∀ front, related front value → after (front ++ back) last) :
    (reader >>= next).Takes after := by
  intro bytes last left done
  obtain ⟨value, between, head, tail⟩ := Step.bind_eq_ok_iff.mp done
  obtain ⟨front, rfl, holds⟩ := first bytes value between head
  obtain ⟨back, rfl, follows⟩ := rest value between last left tail
  exact ⟨front ++ back, (List.append_assoc front back left).symm, follows front holds⟩

/-- A mapped reader takes the same bytes. -/
theorem Spans.map {f : α → β} {size : Nat} (first : reader.Spans size) :
    (f <$> reader).Spans size := by
  intro bytes value rest done
  obtain ⟨a, between, read, same⟩ := Step.map_eq_ok_iff.mp done
  obtain ⟨rfl, rfl⟩ := Prod.mk.inj same
  exact first bytes a between read

/-- What is done to the value read last takes nothing more. -/
theorem Spans.bind_pure {f : α → β} {size : Nat} (first : reader.Spans size) :
    (reader >>= fun value => pure (f value)).Spans size := by
  refine Takes.bind first fun value => takes_pure fun front length => ?_
  rwa [List.append_nil]

/-- An attempt on the value read last takes nothing more. -/
theorem Spans.bind_attempt {f : α → Except Fault β} {size : Nat} (first : reader.Spans size) :
    (reader >>= fun value => (liftM (f value) : Reader β)).Spans size := by
  refine Takes.bind first fun value bytes last rest done => ⟨[], ?_, fun front length => ?_⟩
  · cases tried : f value with
    | error fault =>
      rw [tried] at done
      cases done
    | ok other =>
      rw [tried] at done
      exact congrArg Prod.snd (Except.ok.inj done)
  · rwa [List.append_nil]

/-- The next byte is one byte. -/
@[simp] theorem spans_byte : byte.Spans 1 := by
  intro bytes value rest done
  cases bytes with
  | nil => cases done
  | cons b bytes =>
    obtain ⟨rfl, rfl⟩ := Prod.mk.inj (Except.ok.inj done)
    exact ⟨[b], rfl, rfl⟩

/-- The next bytes are as many as asked for. -/
@[simp] theorem spans_take (count : Nat) : (take count).Spans count := by
  intro bytes value rest done
  unfold take at done
  rw [List.splitAt_eq] at done
  dsimp only at done
  split at done
  · next enough =>
    obtain ⟨rfl, rfl⟩ := Prod.mk.inj (Except.ok.inj done)
    exact ⟨bytes.take count, (List.take_append_drop count bytes).symm, enough⟩
  · cases done

/-- A number takes as many bytes as its width says. -/
@[simp] theorem spans_unsigned (width : Nat) : (unsigned width).Spans width :=
  (spans_take width).bind_pure

/-- Members of one size, behind those that are done. -/
private theorem takes_timesOnto {item : Reader α} {size : Nat} (each : item.Spans size) (count : Nat)
    (done : List α) : (timesOnto item count done).Takes fun front values =>
      front.length + size * done.length = size * values.length := by
  induction count generalizing done with
  | zero =>
    apply takes_pure
    simp
  | succ count ih =>
    refine Takes.bind each fun value bytes values rest read => ?_
    obtain ⟨back, rfl, length⟩ := ih (value :: done) bytes values rest read
    refine ⟨back, rfl, fun front one => ?_⟩
    rw [List.length_cons, Nat.mul_succ] at length
    rw [List.length_append, one]
    omega

/-- **A list takes** as many bytes as its members, if these are all of one size. -/
theorem takes_times {item : Reader α} {size : Nat} (each : item.Spans size) (count : Nat) :
    (times count item).Takes fun front values => front.length = size * values.length :=
  takes_timesOnto each count []

/-! ## (2) Faults -/

/-- Nothing is wrong with a value that is only returned. -/
@[simp] theorem faults_pure (value : α) : (pure value : Reader α).Faults allowed :=
  fun _ _ failed => nomatch failed

/-- **The faults of a chain** are those of its links. -/
theorem Faults.bind (first : reader.Faults allowed) (rest : ∀ value, (next value).Faults allowed) :
    (reader >>= next).Faults allowed := by
  intro bytes fault failed
  change (reader bytes >>= fun p => next p.1 p.2) = .error fault at failed
  rcases Attempt.bind_eq_error_iff.mp failed with here | ⟨⟨value, between⟩, -, later⟩
  · exact first bytes fault here
  · exact rest value between fault later

/-- The faults of a mapped reader are its own. -/
theorem Faults.map {f : α → β} (first : reader.Faults allowed) : (f <$> reader).Faults allowed :=
  first.bind fun value => faults_pure (f value)

/-- An attempt has the fault it fails with. -/
theorem faults_attempt {x : Except Fault α} (only : ∀ fault, x = .error fault → allowed fault) :
    (liftM x : Reader α).Faults allowed := by
  intro bytes fault failed
  cases x with
  | error other => exact only fault (congrArg Except.error (Except.error.inj failed))
  | ok value => cases failed

/-- A byte is missing only at the end. -/
theorem faults_byte (atEnd : allowed .unexpectedEnd) : byte.Faults allowed := by
  intro bytes fault failed
  cases bytes with
  | nil => exact Except.error.inj failed ▸ atEnd
  | cons b bytes => cases failed

/-- Bytes are missing only at the end. -/
theorem faults_take (atEnd : allowed .unexpectedEnd) (count : Nat) : (take count).Faults allowed := by
  intro bytes fault failed
  unfold take at failed
  dsimp only at failed
  split at failed
  · cases failed
  · exact Except.error.inj failed ▸ atEnd

/-- Numbers are cut off only at the end. -/
theorem faults_unsigned (atEnd : allowed .unexpectedEnd) (width : Nat) :
    (unsigned width).Faults allowed :=
  (faults_take atEnd width).bind fun _ => faults_pure _

/-- The faults of a list are those of its members, behind whatever is done. -/
private theorem faults_timesOnto {item : Reader α} (each : item.Faults allowed) (count : Nat)
    (done : List α) : (timesOnto item count done).Faults allowed := by
  induction count generalizing done with
  | zero => exact faults_pure _
  | succ count ih => exact each.bind fun value => ih (value :: done)

/-- **The faults of a list** are those of its members. -/
theorem faults_times {item : Reader α} (each : item.Faults allowed) (count : Nat) :
    (times count item).Faults allowed :=
  faults_timesOnto each count []

end Reader

end Hotpatch
