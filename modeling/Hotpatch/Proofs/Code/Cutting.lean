import Hotpatch.Proofs.Binary.Consumption
import Hotpatch.Proofs.Code.Decoded

/-! # How code is cut

Code is cut from the front: what is read first is the first instruction, and so on until nothing is left, or
until something cannot be read.

* **`Instruction.takes_read`** — an instruction takes as many bytes as are counted for it.
* **`Instruction.Unread`**, **`faults_read`** — why there may be none.
* **`GreedyCut`** — the cut of some bytes, by what is read and what is left; every code has one, and
  `GreedyCut.unique` no other.
* **`GreedyCut.cutOnto_eq`**, **`cutCode_eq`** — the table that code is cut into. -/

namespace Hotpatch

variable {tokens : TokenTable}

/-! ## (1) Single instructions -/

open Reader

/-- An opcode takes as many bytes as its width says. -/
theorem Opcode.takes_read :
    Opcode.read.Takes fun front opcode => front.length = Instruction.opcodeWidth opcode := by
  refine Takes.bind spans_byte fun first => ?_
  split
  · next escape =>
    refine Takes.bind spans_byte fun second => takes_pure fun back one front one' => ?_
    -- With the escape for its high byte, the opcode is not one of a single byte.
    have large : ¬ first.toUInt16 <<< 8 ||| second.toUInt16 ≤ 0xff := by
      intro small
      have bound := UInt16.le_iff_toNat_le.mp small
      rw [escape, UInt16.toNat_or] at bound
      have high : (254 : Nat) <<< 8 ≤ 254 <<< 8 ||| second.toUInt16.toNat := Nat.left_le_or
      exact absurd (Nat.le_trans high bound) (by decide)
    rw [List.length_append, List.append_nil, one, one', Instruction.opcodeWidth, if_neg large]
  · next plain =>
    refine takes_pure fun front one => ?_
    have small : first.toUInt16 ≤ 0xff := by
      rw [UInt16.le_iff_toNat_le, UInt8.toNat_toUInt16]
      exact Nat.le_of_lt_succ first.toNat_lt
    rw [List.append_nil, one, Instruction.opcodeWidth, if_pos small]

namespace Instruction

/-- A word takes four bytes. -/
theorem spans_word : (Binary.read : Reader UInt32).Spans 4 :=
  (spans_unsigned 4).map

/-- A token takes four bytes, and its look-up none. -/
theorem spans_readToken {α : Type} (lookup : Token → Except Fault α) : (readToken lookup).Spans 4 :=
  have token : (Binary.read : Reader Token).Spans 4 := Spans.bind_pure spans_word
  token.bind_attempt

/-- **An operand takes** as many bytes as its form says. -/
theorem takes_operand (form : Form) :
    (readOperand tokens form).Takes fun front i => front.length = form.operandSize i := by
  cases form with
  | complete instruction => exact takes_pure rfl
  | slotByte op => exact spans_byte.bind_pure
  | slotWord op => exact Spans.bind_pure (Spans.map (spans_unsigned 2))
  | constantByte => exact Spans.bind_pure (Spans.map spans_byte)
  | constantWord => exact Spans.bind_pure (Spans.map spans_word)
  | constantLong => exact Spans.bind_pure (Spans.map (Spans.map (spans_unsigned 8)))
  | constantSingle => exact Spans.bind_pure spans_word
  | constantDouble => exact Spans.bind_pure (Spans.map (spans_unsigned 8))
  | invoke op => exact (spans_readToken _).bind_pure
  | typed op => exact (spans_readToken _).bind_pure
  | ldstr => exact (spans_readToken _).bind_pure
  | branch reach condition =>
    cases reach with
    | short => exact Spans.bind_pure (Spans.map spans_byte)
    | long => exact Spans.bind_pure (Spans.map spans_word)
  | switch =>
    have words (count : Nat) := takes_times (spans_word.map (f := UInt32.toInt32)) count
    have table : (Binary.read : Reader (List Int32)).Takes fun front words =>
        front.length = 4 + 4 * words.length := by
      refine Takes.bind (spans_unsigned 4) fun count bytes found rest read => ?_
      obtain ⟨back, whole, length⟩ := words count bytes found rest read
      exact ⟨back, whole, fun front four => by rw [List.length_append, four, length]⟩
    refine Takes.bind table fun found => takes_pure fun front length => ?_
    rw [List.append_nil, length, Form.operandSize, targets, List.length_map]

/-- **An instruction takes** as many bytes as are counted for it, which is at least one. -/
theorem takes_read (source : Nat) :
    (Instruction.read tokens source).Takes fun front found =>
      front.length = found.2 ∧ 0 < front.length := by
  refine Takes.bind Opcode.takes_read fun opcode => ?_
  cases Form.ofOpcode? opcode with
  | none => exact fun _ _ _ failed => nomatch failed
  | some form =>
    refine Takes.bind (takes_operand form) fun i => takes_pure fun back operand front lead => ?_
    rw [List.append_nil, List.length_append, lead, operand]
    exact ⟨rfl, Nat.add_pos_left (Opcode.opcodeWidth_pos opcode) _⟩

/-- Why an instruction that starts at an offset may be **unread**: the bytes end, a token names nothing, or
no form has the opcode. -/
inductive Unread (source : Nat) : Fault → Prop
  | unexpectedEnd : Unread source .unexpectedEnd
  | badToken (token : Token) : Unread source (.badToken token)
  | unknownOpcode {opcode : Opcode} (unknown : Form.ofOpcode? opcode = none) :
    Unread source (.unknownOpcode source opcode)

variable {source : Nat}

/-- A token may be cut off, or name nothing. -/
theorem faults_readToken {α : Type} (table : UInt8) (rows : List α) :
    (readToken (TokenTable.lookup table rows)).Faults (Unread source) := by
  have word : (Binary.read : Reader Token).Faults (Unread source) :=
    Faults.bind (Faults.map (faults_unsigned .unexpectedEnd 4)) fun _ => faults_pure _
  refine word.bind fun token => faults_attempt fun fault failed => ?_
  unfold TokenTable.lookup at failed
  split at failed
  · cases failed
  · obtain rfl := Except.error.inj failed
    exact .badToken token

/-- An operand may be cut off, or be a token that names nothing. -/
theorem faults_operand (form : Form) : (readOperand tokens form).Faults (Unread source) := by
  have byte : Reader.byte.Faults (Unread source) := faults_byte .unexpectedEnd
  have number (width : Nat) : (unsigned width).Faults (Unread source) :=
    faults_unsigned .unexpectedEnd width
  cases form with
  | complete instruction => exact faults_pure _
  | slotByte op => exact byte.bind fun _ => faults_pure _
  | slotWord op => exact Faults.bind (number 2).map fun _ => faults_pure _
  | constantByte => exact Faults.bind byte.map fun _ => faults_pure _
  | constantWord => exact Faults.bind (number 4).map.map fun _ => faults_pure _
  | constantLong => exact Faults.bind (number 8).map.map fun _ => faults_pure _
  | constantSingle => exact Faults.bind (number 4).map fun _ => faults_pure _
  | constantDouble => exact Faults.bind (number 8).map fun _ => faults_pure _
  | invoke op => exact (faults_readToken _ _).bind fun _ => faults_pure _
  | typed op => exact (faults_readToken _ _).bind fun _ => faults_pure _
  | ldstr => exact (faults_readToken _ _).bind fun _ => faults_pure _
  | branch reach condition =>
    cases reach with
    | short => exact Faults.bind byte.map fun _ => faults_pure _
    | long => exact Faults.bind (number 4).map.map fun _ => faults_pure _
  | switch =>
    have table : (Binary.read : Reader (List Int32)).Faults (Unread source) :=
      (number 4).bind fun count => faults_times (number 4).map.map count
    exact table.bind fun _ => faults_pure _

/-- **The faults of an instruction** are those for which it is unread. -/
theorem faults_read : (Instruction.read tokens source).Faults (Unread source) := by
  have byte : Reader.byte.Faults (Unread source) := faults_byte .unexpectedEnd
  have opcode : Opcode.read.Faults (Unread source) := by
    refine byte.bind fun first => ?_
    split
    · exact byte.bind fun _ => faults_pure _
    · exact faults_pure _
  refine opcode.bind fun opcode => ?_
  cases found : Form.ofOpcode? opcode with
  | none =>
    intro bytes fault failed
    exact Except.error.inj failed ▸ .unknownOpcode found
  | some form => exact (faults_operand form).bind fun _ => faults_pure _

end Instruction

/-! ## (2) Cuts -/

/-- A **piece** of code: an instruction over displacements, and the bytes it takes. -/
structure Piece where
  start : Nat
  size : Nat
  instruction : Instruction Int
deriving Repr, DecidableEq

namespace Piece

/-- Where a piece **stops**, which is where displacements are counted from. -/
def stop (p : Piece) : Nat :=
  p.start + p.size

/-- The instruction of a piece over the **offsets** of its targets. -/
def absolute (p : Piece) : Instruction Int :=
  p.instruction.relabel ((p.stop : Int) + ·)

/-- A piece as an **item** of a table. -/
def item (p : Piece) : Nat × Instruction Int :=
  (p.size, p.absolute)

end Piece

/-- The **greedy cut** of the bytes from an offset on: into pieces, and up to the offset of the first
instruction that cannot be read, if there is one. -/
inductive GreedyCut (tokens : TokenTable) :
    Nat → List UInt8 → List Piece → Option (Nat × Fault) → Prop
  | done (start : Nat) : GreedyCut tokens start [] [] none
  | stuck {start : Nat} {bytes : List UInt8} {fault : Fault} (some_bytes : bytes ≠ [])
      (unread : Instruction.read tokens start bytes = .error fault) :
      GreedyCut tokens start bytes [] (some (start, fault))
  | next {start size : Nat} {front rest : List UInt8} {i : Instruction Int} {pieces : List Piece}
      {stop? : Option (Nat × Fault)}
      (reads : Instruction.read tokens start (front ++ rest) = .ok ((i, size), rest))
      (behind : GreedyCut tokens (start + front.length) rest pieces stop?) :
      GreedyCut tokens start (front ++ rest) (⟨start, front.length, i⟩ :: pieces) stop?

/-- What is read in front of other bytes is as long as is counted. -/
theorem Instruction.length_of_read {start size : Nat} {front rest : List UInt8} {i : Instruction Int}
    (reads : Instruction.read tokens start (front ++ rest) = .ok ((i, size), rest)) :
    front.length = size ∧ 0 < front.length := by
  obtain ⟨taken, whole, length⟩ := Instruction.takes_read start _ _ _ reads
  rwa [List.append_cancel_right whole]

/-- **A cut goes on** behind what is read. -/
theorem GreedyCut.of_read {start size : Nat} {bytes rest : List UInt8} {i : Instruction Int}
    {pieces : List Piece} {stop? : Option (Nat × Fault)}
    (reads : Instruction.read tokens start bytes = .ok ((i, size), rest))
    (behind : GreedyCut tokens (start + size) rest pieces stop?) :
    GreedyCut tokens start bytes (⟨start, size, i⟩ :: pieces) stop? := by
  obtain ⟨front, rfl, rfl, -⟩ := Instruction.takes_read start bytes _ rest reads
  exact .next reads behind

/-- **All bytes have a greedy cut.** -/
theorem exists_greedyCut (tokens : TokenTable) (start : Nat) (bytes : List UInt8) :
    ∃ pieces stop?, GreedyCut tokens start bytes pieces stop? := by
  -- Each instruction takes a byte at least, so there are fewer left behind it.
  induction length : bytes.length using Nat.strongRecOn generalizing start bytes with
  | ind count ih =>
    by_cases none : bytes = []
    · exact none ▸ ⟨[], .none, .done start⟩
    · cases outcome : Instruction.read tokens start bytes with
      | error fault => exact ⟨[], _, .stuck none outcome⟩
      | ok found =>
        obtain ⟨⟨i, size⟩, rest⟩ := found
        obtain ⟨front, whole, -, room⟩ := Instruction.takes_read start bytes _ rest outcome
        have shorter : rest.length < count := by
          rw [← length, whole, List.length_append]
          omega
        obtain ⟨pieces, stop?, behind⟩ := ih rest.length shorter (start + size) rest rfl
        exact ⟨_, stop?, .of_read outcome behind⟩

namespace GreedyCut

variable {start : Nat} {bytes : List UInt8} {pieces : List Piece} {stop? : Option (Nat × Fault)}

/-- **Code is cut into the pieces** of the greedy cut, or fails where it is stuck. -/
theorem cutOnto_eq (cut : GreedyCut tokens start bytes pieces stop?) {items : List (Nat × Instruction Int)}
    (before : (items.map (·.1)).sum = start) {limit : Nat} (enough : bytes.length ≤ limit) :
    cutOnto tokens limit (.ofList items) bytes
      = stop?.elim (.ok (.ofList (items ++ pieces.map Piece.item))) (.error ·.2) := by
  induction cut generalizing items limit with
  | done start =>
    rw [cutOnto, List.map_nil, List.append_nil]
    rfl
  | @stuck start bytes fault some_bytes unread =>
    cases bytes with
    | nil => exact absurd rfl some_bytes
    | cons byte bytes =>
      rw [List.length_cons] at enough
      obtain ⟨limit, rfl⟩ := Nat.exists_eq_add_one_of_ne_zero (show limit ≠ 0 by omega)
      rw [cutOnto, OffsetTable.total_ofList, before, unread]
      · rfl
      · exact some_bytes
  | @next start size front rest i pieces stop? reads behind ih =>
    obtain ⟨rfl, room⟩ := Instruction.length_of_read reads
    rw [List.length_append] at enough
    obtain ⟨limit, rfl⟩ := Nat.exists_eq_add_one_of_ne_zero (show limit ≠ 0 by omega)
    have some_bytes : front ++ rest ≠ [] :=
      List.append_ne_nil_of_left_ne_nil (List.ne_nil_of_length_pos room) rest
    have total : (OffsetTable.ofList items).total = start := by
      rw [OffsetTable.total_ofList, before]
    have absolute : i.relabel ((start : Int) + front.length + ·)
        = Piece.absolute ⟨start, front.length, i⟩ := by
      refine Instruction.relabel_congr fun displacement _ => ?_
      dsimp only [Piece.stop]
      push_cast
      rfl
    rw [← total] at reads
    rw [Body.cutOnto_of_read some_bytes reads, total, absolute, ← OffsetTable.ofList_append_singleton,
      ih (by simp [before]) (by omega), List.append_assoc]
    rfl

/-- **Code as a whole is cut** with its length for a limit, as each piece takes a byte at least. -/
theorem cutCode_eq (cut : GreedyCut tokens 0 bytes pieces stop?) :
    cutCode tokens bytes = stop?.elim (.ok (.ofList (pieces.map Piece.item))) (.error ·.2) := by
  have nothing : (([] : List (Nat × Instruction Int)).map (·.1)).sum = 0 := rfl
  exact cut.cutOnto_eq nothing (Nat.le_refl bytes.length)

/-- A cut is stuck at an instruction that cannot be read. -/
theorem unread {stuckAt : Nat} {fault : Fault}
    (cut : GreedyCut tokens start bytes pieces (some (stuckAt, fault))) :
    Instruction.Unread stuckAt fault := by
  generalize whole : some (stuckAt, fault) = stop? at cut
  induction cut with
  | done => cases whole
  | stuck some_bytes unread =>
    cases whole
    exact Instruction.faults_read _ _ unread
  | next reads behind ih => exact ih whole

/-- **Code has one greedy cut** only. -/
theorem unique (cut : GreedyCut tokens start bytes pieces stop?) {others : List Piece}
    {otherStop? : Option (Nat × Fault)} (other : GreedyCut tokens start bytes others otherStop?) :
    pieces = others ∧ stop? = otherStop? := by
  induction cut generalizing others otherStop? with
  | done start =>
    generalize none : [] = bytes at other
    cases other with
    | done => exact ⟨rfl, rfl⟩
    | stuck some_bytes unread => exact absurd none.symm some_bytes
    | next reads behind =>
      obtain ⟨-, room⟩ := Instruction.length_of_read reads
      rw [(List.append_eq_nil_iff.mp none.symm).1] at room
      exact absurd room (Nat.lt_irrefl 0)
  | @stuck start bytes fault some_bytes unread =>
    cases other with
    | done => exact absurd rfl some_bytes
    | stuck _ unread' =>
      obtain rfl := Except.error.inj (unread.symm.trans unread')
      exact ⟨rfl, rfl⟩
    | next reads behind => cases unread.symm.trans reads
  | @next start size front rest i pieces stop? reads behind ih =>
    generalize same : front ++ rest = bytes at other
    cases other with
    | done =>
      obtain ⟨-, room⟩ := Instruction.length_of_read reads
      rw [(List.append_eq_nil_iff.mp same).1] at room
      exact absurd room (Nat.lt_irrefl 0)
    | stuck some_bytes unread =>
      subst same
      cases reads.symm.trans unread
    | next reads' behind' =>
      rw [← same] at reads'
      obtain ⟨equal, rfl⟩ := Prod.mk.inj (Except.ok.inj (reads.symm.trans reads'))
      obtain ⟨rfl, rfl⟩ := Prod.mk.inj equal
      obtain rfl := List.append_cancel_right same
      obtain ⟨rfl, rfl⟩ := ih behind'
      exact ⟨rfl, rfl⟩

/-- Pieces take up room. -/
theorem size_pos (cut : GreedyCut tokens start bytes pieces stop?) : ∀ p ∈ pieces, 0 < p.size := by
  induction cut with
  | done | stuck => nofun
  | next reads behind ih => exact List.forall_mem_cons.mpr ⟨(Instruction.length_of_read reads).2, ih⟩

/-- Without being stuck, all bytes are in pieces. -/
theorem sum_sizes (cut : GreedyCut tokens start bytes pieces none) :
    (pieces.map (·.size)).sum = bytes.length := by
  generalize whole : (none : Option (Nat × Fault)) = stop? at cut
  induction cut with
  | done => rfl
  | stuck => cases whole
  | next reads behind ih => rw [List.map_cons, List.sum_cons, ih whole, List.length_append]

/-- Pieces lie within the bytes. -/
theorem stop_le (cut : GreedyCut tokens start bytes pieces stop?) :
    ∀ p ∈ pieces, p.stop ≤ start + bytes.length := by
  induction cut with
  | done | stuck => nofun
  | @next start size front rest i pieces stop? reads behind ih =>
    rw [List.length_append, ← Nat.add_assoc]
    exact List.forall_mem_cons.mpr ⟨Nat.le_add_right _ _, ih⟩

/-- In a table the pieces start where they do in the code. -/
theorem laidOut_eq (cut : GreedyCut tokens start bytes pieces stop?) :
    OffsetTable.laidOut start (pieces.map Piece.item) = pieces.map fun p => (p.start, p.absolute) := by
  induction cut with
  | done | stuck => rfl
  | next reads behind ih => rw [List.map_cons, Piece.item, OffsetTable.laidOut, ih, List.map_cons]

/-- **A piece is found** at its start, and at no other offset. -/
theorem index?_lookup_eq_some_iff (cut : GreedyCut tokens 0 bytes pieces stop?) {offset index : Nat} :
    ((OffsetTable.ofList (pieces.map Piece.item)).lookup offset).index? = some index
      ↔ ∃ p, pieces[index]? = some p ∧ p.start = offset := by
  have increasing : (OffsetTable.ofList (pieces.map Piece.item)).Increasing := by
    refine OffsetTable.increasing_ofList fun item mem => ?_
    obtain ⟨p, inside, rfl⟩ := List.mem_map.mp mem
    exact cut.size_pos p inside
  rw [OffsetTable.index?_lookup_eq_some_iff increasing, ← Array.getElem?_toList,
    OffsetTable.toList_entries_ofList, cut.laidOut_eq, List.getElem?_map]
  simp only [Option.map_eq_some_iff, Prod.mk.injEq]
  constructor
  · rintro ⟨value, p, here, starts, -⟩
    exact ⟨p, here, starts⟩
  · rintro ⟨p, here, starts⟩
    exact ⟨p.absolute, p, here, starts, rfl⟩

end GreedyCut

end Hotpatch
