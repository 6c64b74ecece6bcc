import Hotpatch.Code.Decoding
import Hotpatch.Proofs.Code.Assembling
import Hotpatch.Proofs.Code.Forms
import Hotpatch.Proofs.Code.Labels
import Hotpatch.Proofs.Metadata.ReadBack

/-! # Instructions as bytes

What is written for an instruction, and what can be read as one.

* **`Reach.Reaches`** — the displacements that can be written.
* **`Instruction.operands`** — what an instruction names by a token.
* **`Instruction.Written`** — bytes in one of the forms of an instruction, which are read back as it.
* **`decides_encode`**, **`assembles_encode`** — encoding fails just if a displacement is out of
  reach, and else writes the instruction. -/

namespace Hotpatch

open Binary (read write)
open Bounded (Fits)

/-! ## (1) Displacements -/

namespace Reach

/-- A reach **reaches** the displacements that fit into its bytes. -/
def Reaches : Reach → Int → Prop
  | short, displacement => -128 ≤ displacement ∧ displacement ≤ 127
  | long, displacement => -2147483648 ≤ displacement ∧ displacement ≤ 2147483647

instance (reach : Reach) (displacement : Int) : Decidable (reach.Reaches displacement) := by
  cases reach <;> exact instDecidableAnd

/-- The **bytes** of a displacement. -/
def bytes : Reach → Int → List UInt8
  | short, displacement => write (Int8.ofInt displacement)
  | long, displacement => write (Int32.ofInt displacement)

/-- The number of bytes of a displacement. -/
def width : Reach → Nat
  | short => 1
  | long => 4

@[simp] theorem length_bytes (reach : Reach) (displacement : Int) :
    (reach.bytes displacement).length = reach.width := by
  cases reach <;> rfl

/-- A displacement between zero and one that is reached is reached as well. -/
theorem Reaches.of_between {reach : Reach} {near far : Int} (reaches : reach.Reaches far)
    (between : 0 ≤ near ∧ near ≤ far ∨ far ≤ near ∧ near ≤ 0) : reach.Reaches near := by
  cases reach with
  | short =>
    obtain ⟨low, high⟩ := reaches
    constructor <;> omega
  | long =>
    obtain ⟨low, high⟩ := reaches
    constructor <;> omega

end Reach

namespace Instruction

/-- A displacement is encoded just if it is within reach. -/
theorem encodeDisplacement_eq (source : Nat) (reach : Reach) (displacement : Int) :
    encodeDisplacement source reach displacement
      = if reach.Reaches displacement then .ok (reach.bytes displacement)
        else .error (.branchOutOfRange source displacement) := by
  cases reach <;> rfl

/-- The displacements of an instruction are **within reach**. -/
def WithinReach : Instruction Int → Prop
  | branch reach _ displacement => reach.Reaches displacement
  | switch displacements => ∀ displacement ∈ displacements, Reach.long.Reaches displacement
  | _ => True

/-- Displacements that only get closer to zero stay within reach. -/
theorem WithinReach.relabel {i : Instruction Int} {f : Int → Int} (within : i.WithinReach)
    (closer : ∀ d ∈ i.targets, 0 ≤ f d ∧ f d ≤ d ∨ d ≤ f d ∧ f d ≤ 0) : (i.relabel f).WithinReach := by
  cases i with
  | branch reach condition d => exact Reach.Reaches.of_between within (closer d List.mem_cons_self)
  | switch displacements =>
    rw [relabel_switch]
    intro displacement mem
    obtain ⟨d, here, rfl⟩ := List.mem_map.mp mem
    exact Reach.Reaches.of_between (within d here) (closer d here)
  | _ => trivial

/-- The **fault of reach** of an instruction at an offset: the first displacement that cannot be
written. -/
def outOfReach? (source : Nat) : Instruction Int → Option Fault
  | branch reach _ displacement =>
    if reach.Reaches displacement then none else some (.branchOutOfRange source displacement)
  | switch displacements => displacements.findSome? fun displacement =>
    if Reach.long.Reaches displacement then none
    else some (.branchOutOfRange source displacement)
  | _ => none

/-- It is told with the offset and the displacement. -/
theorem exists_of_outOfReach? {source : Nat} {i : Instruction Int} {fault : Fault}
    (outOfReach : i.outOfReach? source = some fault) :
    ∃ displacement, fault = .branchOutOfRange source displacement := by
  cases i with
  | branch reach condition displacement =>
    rw [outOfReach?] at outOfReach
    split at outOfReach
    · cases outOfReach
    · exact ⟨displacement, (Option.some.inj outOfReach).symm⟩
  | switch displacements =>
    obtain ⟨displacement, -, found⟩ := List.exists_of_findSome?_eq_some outOfReach
    split at found
    · cases found
    · exact ⟨displacement, (Option.some.inj found).symm⟩
  | _ => cases outOfReach

/-- There is no such fault if all displacements are within reach. -/
theorem outOfReach?_eq_none {source : Nat} {i : Instruction Int} (within : i.WithinReach) :
    i.outOfReach? source = none := by
  cases i with
  | branch reach condition displacement => exact if_pos within
  | switch displacements =>
    rw [outOfReach?, List.findSome?_eq_none_iff]
    exact fun displacement mem => if_pos (within displacement mem)
  | _ => rfl

/-! ## (2) Operands and forms -/

/-- The **operands** of an instruction: the string, type or method that it names by a token. -/
def operands {L : Type} : Instruction L → TokenTable
  | invoke _ method => ⟨[], [], [method]⟩
  | typed _ type => ⟨[], [type], []⟩
  | ldstr text => ⟨[text], [], []⟩
  | _ => .empty

/-- Labels are not among the operands. -/
@[simp] theorem operands_relabel {L L' : Type} (f : L → L') (i : Instruction L) :
    (i.relabel f).operands = i.operands := by
  cases i <;> rfl

/-- Nor does an attempt on the labels that succeeds change the operands. -/
theorem operands_of_mapLabels {L L' ε : Type} {f : L → Except ε L'} {i : Instruction L} {j : Instruction L'}
    (done : i.mapLabels f = .ok j) : j.operands = i.operands :=
  eq_of_erase_eq operands_relabel (targets_of_mapLabels done).2

/-- Bytes that are **written** for an instruction: an opcode of the table, and behind it an operand
that readers with the tokens read in the form of the opcode. -/
def Written (tokens : TokenTable) (i : Instruction Int) (bytes : List UInt8) : Prop :=
  ∃ opcode form operand, (opcode, form) ∈ Form.table ∧ bytes = opcode.write ++ operand
    ∧ operand.length = form.operandSize i ∧ i.width = opcodeWidth opcode + form.operandSize i
    ∧ (tokens.Small → i.targets.length < 4294967296 → (readOperand tokens form).Reads operand i)

variable {tokens : TokenTable} {i : Instruction Int} {bytes : List UInt8}

/-- An instruction is written in as many bytes as its width says. -/
theorem Written.length_eq (written : Written tokens i bytes) : bytes.length = i.width := by
  obtain ⟨opcode, form, operand, -, rfl, size, width, -⟩ := written
  rw [List.length_append, Opcode.length_write, size, width]

/-- **What is written is read back**, and as many bytes are counted. -/
theorem Written.reads (written : Written tokens i bytes) (small : tokens.Small)
    (few : i.targets.length < 4294967296) (source : Nat) :
    (Instruction.read tokens source).Reads bytes (i, i.width) := by
  obtain ⟨opcode, form, operand, entry, rfl, -, width, reads⟩ := written
  refine (Opcode.reads_of_writable (Form.writable_of_mem_table _ entry)).bind ?_
  rw [Form.ofOpcode?_eq_some_iff.mpr entry, width]
  exact (reads small few).bind_pure _

/-- An opcode that is the whole instruction. -/
theorem written_complete {opcode : Opcode} (entry : (opcode, .complete i) ∈ Form.table) :
    Written tokens i opcode.write := by
  refine ⟨opcode, .complete i, [], entry, (List.append_nil _).symm, rfl, ?_, fun _ _ => ?_⟩
  · exact (Form.opcodeWidth_of_mem_table _ entry).symm
  · exact Reader.Reads.pure i

/-- **A slot operation** is written in its shortest form. -/
theorem written_encodeSlot (op : SlotOp) (index : UInt16) :
    Written tokens (slot op index) (encodeSlot op index) := by
  -- The two forms with an operand, for slots and operations that have no opcode of their own.
  have behind (far : ¬ (op.fixedOpcode?.isSome ∧ index ≤ 3)) : Written tokens (slot op index)
      (if index ≤ 255 then op.byteOpcode.write ++ [index.toUInt8]
        else op.wordOpcode.write ++ write index) := by
    have lead := Form.opcodeWidth_of_mem_table _ (Form.slotByte_mem_table op)
    have wordLead := Form.opcodeWidth_of_mem_table _ (Form.slotWord_mem_table op)
    split
    · next small =>
      refine ⟨_, _, _, Form.slotByte_mem_table op, rfl, rfl, ?_, fun _ _ => ?_⟩
      · rw [width, slotWidth, if_neg far, if_pos small, lead]
        rfl
      · have same : index.toUInt8.toUInt16 = index := by
          have bound : index.toNat ≤ 255 := UInt16.le_iff_toNat_le.mp small
          apply UInt16.toNat_inj.mp
          rw [UInt8.toNat_toUInt16, UInt16.toNat_toUInt8]
          omega
        have reads := (Reader.reads_byte index.toUInt8).bind_pure fun b => (slot op b.toUInt16 :
          Instruction Int)
        rwa [same] at reads
    · next large =>
      refine ⟨_, _, _, Form.slotWord_mem_table op, rfl, rfl, ?_, fun _ _ => ?_⟩
      · rw [width, slotWidth, if_neg far, if_neg large, wordLead]
        rfl
      · exact (reads_write index trivial).bind_pure _
  rw [encodeSlot]
  cases fixed : op.fixedOpcode? with
  | none =>
    refine behind fun h => ?_
    rw [fixed] at h
    cases h.1
  | some base =>
    dsimp only
    by_cases small : index ≤ 3
    · rw [if_pos small]
      exact written_complete (Form.fixedSlot_mem_table fixed small)
    · rw [if_neg small]
      exact behind fun h => small h.2

/-- **A constant** is written in its shortest form. -/
theorem written_encodeConstant (value : Int32) :
    Written tokens (ldcI4 value) (encodeConstant value) := by
  rw [encodeConstant]
  split
  · next small => exact written_complete (Form.fixedConstant_mem_table small)
  · next large =>
    split
    · next byte =>
      refine ⟨_, .constantByte, _, by decide, rfl, rfl, ?_, fun _ _ => ?_⟩
      · rw [width, constantWidth, if_neg large, if_pos byte]
        rfl
      · have same : value.toInt8.toInt32 = value := by
          have low : -128 ≤ value.toInt := Int32.le_iff_toInt_le.mp byte.1
          have high : value.toInt ≤ 127 := Int32.le_iff_toInt_le.mp byte.2
          rw [← Int32.toInt_inj, Int8.toInt_toInt32, Int32.toInt_toInt8]
          exact Int.bmod_eq_of_le (by omega) (by omega)
        have reads := (reads_write value.toInt8 trivial).bind_pure fun v => (ldcI4 v.toInt32 :
          Instruction Int)
        rwa [same] at reads
    · next word =>
      refine ⟨_, .constantWord, _, by decide, rfl, rfl, ?_, fun _ _ => ?_⟩
      · rw [width, constantWidth, if_neg large, if_neg word]
        rfl
      · exact (reads_write value trivial).bind_pure _

/-- The bytes of a displacement within reach are read as the displacement. -/
theorem written_branch {reach : Reach} (condition : Condition) {displacement : Int}
    (reaches : reach.Reaches displacement) :
    Written tokens (branch reach condition displacement)
      ((reach.opcode condition).write ++ reach.bytes displacement) := by
  have lead := Form.opcodeWidth_of_mem_table _ (Form.branch_mem_table reach condition)
  refine ⟨_, _, _, Form.branch_mem_table reach condition, rfl, ?_, ?_, fun _ _ => ?_⟩
  · cases reach <;> rfl
  · rw [lead]
    cases reach <;> rfl
  · cases reach with
    | short =>
      have back := Int8.toInt_ofInt_of_le reaches.1 (Int.lt_add_one_of_le reaches.2)
      have reads := (reads_write (Int8.ofInt displacement) trivial).bind_pure fun v =>
        branch .short condition v.toInt
      rwa [back] at reads
    | long =>
      have back := Int32.toInt_ofInt_of_le reaches.1 (Int.lt_add_one_of_le reaches.2)
      have reads := (reads_write (Int32.ofInt displacement) trivial).bind_pure fun v =>
        branch .long condition v.toInt
      rwa [back] at reads

/-- The bytes of a table of displacements are read as the table, if it is not too long. -/
theorem written_switch {displacements : List Int}
    (reaches : ∀ displacement ∈ displacements, Reach.long.Reaches displacement) :
    Written tokens (switch displacements) (Opcode.switch.write
      ++ (writeLength displacements.length ++ (displacements.map Reach.long.bytes).flatten)) := by
  refine ⟨_, .switch, _, by decide, rfl, ?_, ?_, fun _ few => ?_⟩
  · have each : ∀ chunk ∈ displacements.map Reach.long.bytes, chunk.length = 4 := by
      intro chunk mem
      obtain ⟨displacement, -, rfl⟩ := List.mem_map.mp mem
      exact Reach.length_bytes .long displacement
    rw [List.length_append, writeLength, length_littleEndian, List.length_flatten,
      List.map_congr_left each, List.map_const', List.sum_replicate_nat, List.length_map]
    exact congrArg (4 + ·) (Nat.mul_comm _ 4)
  · show 5 + 4 * displacements.length = 1 + (4 + 4 * displacements.length)
    omega
  · -- The bytes are those of a list of words.
    have words : writeLength displacements.length ++ (displacements.map Reach.long.bytes).flatten
        = write (displacements.map Int32.ofInt) := by
      show _ = writeLength (displacements.map Int32.ofInt).length
        ++ (displacements.map Int32.ofInt).flatMap write
      rw [List.length_map, List.flatMap_map, List.flatMap_def]
      rfl
    have back : (displacements.map Int32.ofInt).map Int32.toInt = displacements := by
      rw [List.map_map]
      refine (List.map_congr_left fun displacement mem => ?_).trans (List.map_id displacements)
      have ⟨low, high⟩ := reaches displacement mem
      exact Int32.toInt_ofInt_of_le low (Int.lt_add_one_of_le high)
    have fits : Fits (displacements.map Int32.ofInt) :=
      ⟨by rwa [List.length_map], fun _ _ => trivial⟩
    have reads := (reads_write _ fits).bind_pure fun words => switch (words.map Int32.toInt)
    rwa [back, ← words] at reads

/-! ## (3) Encoding -/

/-- A displacement that is encoded was within reach. -/
theorem assembles_encodeDisplacement (source : Nat) (reach : Reach) (displacement : Int) :
    Assembler.Assembles (encodeDisplacement source reach displacement) .empty fun _ bytes =>
      reach.Reaches displacement ∧ bytes = reach.bytes displacement := by
  rw [encodeDisplacement_eq]
  split
  · next reaches => exact Assembler.assembles_pure fun _ => ⟨reaches, rfl⟩
  · intro t bytes t' done
    cases done

/-- **When encoding fails**: exactly when a displacement is out of reach, whatever the table. -/
theorem decides_encode (source : Nat) (i : Instruction Int) :
    (i.encode source).Decides (i.outOfReach? source) := by
  cases i with
  | branch reach condition displacement =>
    rw [encode, encodeDisplacement_eq, outOfReach?]
    by_cases reaches : reach.Reaches displacement
    · rw [if_pos reaches, if_pos reaches]
      exact fun t => ⟨_, t, rfl⟩
    · rw [if_neg reaches, if_neg reaches]
      exact fun t => rfl
  | switch displacements =>
    -- The fault of a table is that of its first displacement out of reach.
    have each : ∀ displacement ∈ displacements,
        Assembler.Decides (encodeDisplacement source .long displacement)
          (if Reach.long.Reaches displacement then none
            else some (.branchOutOfRange source displacement)) := by
      intro displacement _
      rw [encodeDisplacement_eq]
      split
      · exact fun t => ⟨_, t, rfl⟩
      · exact fun t => rfl
    exact (Assembler.Decides.mapM each).bind_pure _
  | _ => exact fun t => ⟨_, _, rfl⟩

/-- A token that stands for a value is read as the value. -/
theorem reads_readToken {α : Type} {lookup : Token → Except Fault α} {token : Token} {value : α}
    (found : lookup token = .ok value) : (readToken lookup).Reads (write token) value := by
  intro rest
  refine (Step.bind_of_ok (reads_write token trivial rest)).trans ?_
  rw [found]
  rfl

/-- **What encoding gives**: the bytes of the instruction, for all readers with a table that has the
operands. -/
theorem assembles_encode (source : Nat) (i : Instruction Int) :
    (i.encode source).Assembles i.operands fun u => Written u i := by
  cases i with
  | plain op => exact Assembler.assembles_pure fun u => written_complete (Form.plain_mem_table op)
  | slot op index => exact Assembler.assembles_pure fun u => written_encodeSlot op index
  | ldcI4 value => exact Assembler.assembles_pure fun u => written_encodeConstant value
  | ldcI8 value =>
    refine Assembler.assembles_pure fun u =>
      ⟨_, .constantLong, _, by decide, rfl, rfl, rfl, fun _ _ => ?_⟩
    exact (reads_write value trivial).bind_pure _
  | ldcR4 bits =>
    refine Assembler.assembles_pure fun u =>
      ⟨_, .constantSingle, _, by decide, rfl, rfl, rfl, fun _ _ => ?_⟩
    exact (reads_write bits trivial).bind_pure _
  | ldcR8 bits =>
    refine Assembler.assembles_pure fun u =>
      ⟨_, .constantDouble, _, by decide, rfl, rfl, rfl, fun _ _ => ?_⟩
    exact (reads_write bits trivial).bind_pure _
  | invoke op method =>
    intro t bytes t' done
    obtain ⟨rfl, rfl⟩ := Prod.mk.inj (Except.ok.inj done)
    have lead := Form.opcodeWidth_of_mem_table _ (Form.invoke_mem_table op)
    refine ⟨rfl, fun u grown => ⟨_, _, _, Form.invoke_mem_table op, rfl, rfl, ?_, fun small _ => ?_⟩⟩
    · rw [lead]
      rfl
    · exact (reads_readToken (TokenTable.lookup_intern _ grown.methods small.methods)).bind_pure _
  | typed op type =>
    intro t bytes t' done
    obtain ⟨rfl, rfl⟩ := Prod.mk.inj (Except.ok.inj done)
    have lead := Form.opcodeWidth_of_mem_table _ (Form.typed_mem_table op)
    refine ⟨rfl, fun u grown => ⟨_, _, _, Form.typed_mem_table op, rfl, rfl, ?_, fun small _ => ?_⟩⟩
    · rw [lead]
      rfl
    · exact (reads_readToken (TokenTable.lookup_intern _ grown.types small.types)).bind_pure _
  | ldstr text =>
    intro t bytes t' done
    obtain ⟨rfl, rfl⟩ := Prod.mk.inj (Except.ok.inj done)
    refine ⟨rfl, fun u grown => ⟨_, .ldstr, _, by decide, rfl, rfl, rfl, fun small _ => ?_⟩⟩
    exact (reads_readToken (TokenTable.lookup_intern _ grown.strings small.strings)).bind_pure _
  | branch reach condition displacement =>
    refine (assembles_encodeDisplacement source reach displacement).bind_pure ?_
    rintro u bytes ⟨reaches, rfl⟩
    exact written_branch condition reaches
  | switch displacements =>
    have each : ∀ displacement ∈ displacements,
        Assembler.Assembles (encodeDisplacement source .long displacement) .empty fun _ bytes =>
          Reach.long.Reaches displacement ∧ bytes = Reach.long.bytes displacement :=
      fun displacement _ => assembles_encodeDisplacement source .long displacement
    -- Displacements ask for no tokens.
    have all := Assembler.Assembles.mapM each
    rw [TokenTable.collect_empty] at all
    refine all.bind_pure fun u chunks written => ?_
    obtain ⟨reaches, rfl⟩ := (forall₂_iff_map fun _ _ _ => Iff.rfl).mp written
    rw [List.append_assoc]
    exact written_switch reaches

end Instruction

end Hotpatch
