import Hotpatch.Proofs.Code.InstructionBytes
import Mathlib.Data.List.Perm.Subperm

/-! # Instructions that are read

What an instruction is like that was read from any bytes, however long a form they use: it can be
written again, and takes no more bytes then.

* **`TokenTable.Names`** — the operands that tokens of a table can stand for.
* **`Instruction.Admitted`** — the instructions that some tokens admit in so many bytes.
* **`admitted_of_yields`** — only such instructions are read. -/

namespace Hotpatch

open Binary (read write)
open Bounded (Fits)

/-! ## (1) Operands -/

/-- A table **names** operands if each of them is in a row that a token can stand for. -/
structure TokenTable.Names (t operands : TokenTable) : Prop where
  strings : operands.strings ⊆ t.strings.take 16777215
  types : operands.types ⊆ t.types.take 16777215
  methods : operands.methods ⊆ t.methods.take 16777215

namespace TokenTable

variable {α : Type} {t : TokenTable}

/-- Where there are no operands, none has to be named. -/
@[simp] theorem names_empty (t : TokenTable) : t.Names .empty :=
  ⟨List.nil_subset _, List.nil_subset _, List.nil_subset _⟩

/-- The operands of a list are named if those of each member are. -/
theorem names_collect {operands : α → TokenTable} {xs : List α}
    (each : ∀ x ∈ xs, t.Names (operands x)) : t.Names (.collect operands xs) := by
  have together {β : Type} {f : α → List β} {rows : List β} (inside : ∀ x ∈ xs, f x ⊆ rows) :
      xs.flatMap f ⊆ rows := by
    intro value mem
    obtain ⟨x, here, found⟩ := List.mem_flatMap.mp mem
    exact inside x here found
  exact ⟨together fun x mem => (each x mem).strings, together fun x mem => (each x mem).types,
    together fun x mem => (each x mem).methods⟩

/-- A value that a token stands for is in one of the rows that tokens can stand for. -/
theorem mem_take_of_lookup {table : UInt8} {rows : List α} {token : Token} {value : α}
    (found : lookup table rows token = .ok value) : value ∈ rows.take 16777215 := by
  obtain ⟨row, small, here⟩ := exists_row_of_lookup found
  refine List.mem_iff_getElem?.mpr ⟨row, ?_⟩
  rw [List.getElem?_take_of_lt (by omega), here]

/-- There are not too many different values to be named among rows that can be. -/
theorem length_dedup_lt [DecidableEq α] {values rows : List α} (named : values ⊆ rows.take 16777215) :
    values.dedup.length < 16777216 := by
  -- Different values are in different rows, and only so many rows have a token.
  have inside : values.dedup ⊆ rows.take 16777215 :=
    fun value mem => named (List.mem_dedup.mp mem)
  have shorter := (List.subperm_of_subset (List.nodup_dedup values) inside).length_le
  rw [List.length_take] at shorter
  omega

end TokenTable

/-! ## (2) Instructions -/

namespace Instruction

/-- Every instruction takes a byte at least. -/
@[simp] theorem width_pos {L : Type} (i : Instruction L) : 0 < i.width := by
  cases i with
  | plain op => exact Opcode.opcodeWidth_pos op.opcode
  | slot op index =>
    show 0 < slotWidth op index
    rw [slotWidth]
    split
    · decide
    · split <;> decide
  | ldcI4 value =>
    show 0 < constantWidth value
    rw [constantWidth]
    split
    · decide
    · split <;> decide
  | branch reach condition target => cases reach <;> exact Nat.succ_pos _
  | switch targets =>
    show 0 < 5 + 4 * targets.length
    omega
  | _ => exact Nat.succ_pos _

/-- An instruction that some tokens **admit** in a number of bytes: it needs no more of them, its
operands are named, and its displacements can be written. -/
structure Admitted (tokens : TokenTable) (i : Instruction Int) (size : Nat) : Prop where
  width_le : i.width ≤ size
  names : tokens.Names i.operands
  within : i.WithinReach

variable {tokens : TokenTable} {i : Instruction Int}

/-- A value that is read through a token is in one of the rows that tokens can stand for. -/
theorem named_of_yields {α : Type} {table : UInt8} {rows : List α} {value : α}
    (yields : (readToken (TokenTable.lookup table rows)).Yields value) :
    [value] ⊆ rows.take 16777215 := by
  obtain ⟨token, -, found⟩ := yields.of_bind
  exact List.cons_subset.mpr ⟨TokenTable.mem_take_of_lookup found.of_attempt, List.nil_subset _⟩

/-- One byte holds only displacements of short reach. -/
@[simp] theorem reaches_toInt_byte (v : Int8) : Reach.short.Reaches v.toInt :=
  ⟨v.le_toInt, Int.le_of_lt_add_one v.toInt_lt⟩

/-- Four bytes hold only displacements of long reach. -/
@[simp] theorem reaches_toInt_word (v : Int32) : Reach.long.Reaches v.toInt :=
  ⟨v.le_toInt, Int.le_of_lt_add_one v.toInt_lt⟩

/-- An instruction without targets is admitted if its operands are named, and there are enough bytes.
-/
theorem admitted_of_targets_nil {size : Nat} (noTargets : i.targets = []) (width_le : i.width ≤ size)
    (names : tokens.Names i.operands) : Admitted tokens i size := by
  refine ⟨width_le, names, ?_⟩
  cases i with
  | branch reach condition target => cases noTargets
  | switch targets =>
    obtain rfl : targets = [] := noTargets
    exact nofun
  | _ => trivial

/-- The instructions that are an opcode of their own have neither targets nor operands. -/
theorem bare_of_mem_table {opcode : Opcode} (entry : (opcode, .complete i) ∈ Form.table) :
    i.targets = [] ∧ i.operands = .empty := by
  have all : ∀ entry ∈ Form.table, ∀ i ∈ entry.2.instruction?,
      i.targets = [] ∧ i.operands = .empty := by
    decide +kernel
  exact all _ entry i rfl

/-- A slot takes at most two bytes if it fits into one, and never more than four. -/
theorem slotWidth_le (op : SlotOp) (index : UInt16) :
    slotWidth op index ≤ 4 ∧ (index ≤ 255 → slotWidth op index ≤ 2) := by
  rw [slotWidth]
  split
  · exact ⟨by decide, fun _ => by decide⟩
  · split
    · exact ⟨by decide, fun _ => by decide⟩
    · next large => exact ⟨by decide, fun small => absurd small large⟩

/-- A constant takes at most two bytes if it is a signed byte, and never more than five. -/
theorem constantWidth_le (value : Int32) :
    constantWidth value ≤ 5 ∧ (-128 ≤ value ∧ value ≤ 127 → constantWidth value ≤ 2) := by
  rw [constantWidth]
  split
  · exact ⟨by decide, fun _ => by decide⟩
  · split
    · exact ⟨by decide, fun _ => by decide⟩
    · next large => exact ⟨by decide, fun small => absurd small large⟩

/-- **What a form reads is admitted** in as many bytes as the opcode and its operand take. -/
theorem admitted_of_yields_operand {opcode : Opcode} {form : Form} (entry : (opcode, form) ∈ Form.table)
    (yields : (readOperand tokens form).Yields i) :
    Admitted tokens i (opcodeWidth opcode + form.operandSize i) := by
  -- All that depends on the opcode is how wide it is, and that is known from the form.
  have lead : opcodeWidth opcode = form.leadWidth := Form.opcodeWidth_of_mem_table _ entry
  have bare {k : Instruction Int} {size : Nat} (noTargets : k.targets = [])
      (width_le : k.width ≤ form.leadWidth + size) (names : tokens.Names k.operands) :
      Admitted tokens k (opcodeWidth opcode + size) :=
    admitted_of_targets_nil noTargets (lead ▸ width_le) names
  cases form with
  | complete instruction =>
    obtain rfl := yields.of_pure
    obtain ⟨noTargets, noOperands⟩ := bare_of_mem_table entry
    exact bare noTargets (Nat.le_refl _) (noOperands ▸ tokens.names_empty)
  | slotByte op =>
    obtain ⟨b, -, returned⟩ := yields.of_bind
    obtain rfl := returned.of_pure
    have small : b.toUInt16 ≤ 255 := by
      have bound := b.toNat_lt
      rw [UInt16.le_iff_toNat_le, UInt8.toNat_toUInt16]
      exact Nat.le_of_lt_succ bound
    exact bare rfl ((slotWidth_le op b.toUInt16).2 small) tokens.names_empty
  | slotWord op =>
    obtain ⟨index, -, returned⟩ := yields.of_bind
    obtain rfl := returned.of_pure
    exact bare rfl (slotWidth_le op index).1 tokens.names_empty
  | constantByte =>
    obtain ⟨v, -, returned⟩ := yields.of_bind
    obtain rfl := returned.of_pure
    have small : -128 ≤ v.toInt32 ∧ v.toInt32 ≤ 127 := by
      rw [Int32.le_iff_toInt_le, Int32.le_iff_toInt_le, Int8.toInt_toInt32]
      exact ⟨v.le_toInt, Int.le_of_lt_add_one v.toInt_lt⟩
    exact bare rfl ((constantWidth_le v.toInt32).2 small) tokens.names_empty
  | constantWord =>
    obtain ⟨value, -, returned⟩ := yields.of_bind
    obtain rfl := returned.of_pure
    exact bare rfl (constantWidth_le value).1 tokens.names_empty
  | constantLong =>
    obtain ⟨value, -, returned⟩ := yields.of_bind
    obtain rfl := returned.of_pure
    exact bare rfl (Nat.le_refl _) tokens.names_empty
  | constantSingle =>
    obtain ⟨bits, -, returned⟩ := yields.of_bind
    obtain rfl := returned.of_pure
    exact bare rfl (Nat.le_refl _) tokens.names_empty
  | constantDouble =>
    obtain ⟨bits, -, returned⟩ := yields.of_bind
    obtain rfl := returned.of_pure
    exact bare rfl (Nat.le_refl _) tokens.names_empty
  | invoke op =>
    obtain ⟨method, read, returned⟩ := yields.of_bind
    obtain rfl := returned.of_pure
    exact bare rfl (Nat.le_refl _) ⟨List.nil_subset _, List.nil_subset _, named_of_yields read⟩
  | typed op =>
    obtain ⟨type, read, returned⟩ := yields.of_bind
    obtain rfl := returned.of_pure
    exact bare rfl (Nat.le_refl _) ⟨List.nil_subset _, named_of_yields read, List.nil_subset _⟩
  | ldstr =>
    obtain ⟨text, read, returned⟩ := yields.of_bind
    obtain rfl := returned.of_pure
    exact bare rfl (Nat.le_refl _) ⟨named_of_yields read, List.nil_subset _, List.nil_subset _⟩
  | branch reach condition =>
    cases reach with
    | short =>
      obtain ⟨v, -, returned⟩ := yields.of_bind
      obtain rfl := returned.of_pure
      exact ⟨lead ▸ Nat.le_refl 2, tokens.names_empty, reaches_toInt_byte v⟩
    | long =>
      obtain ⟨v, -, returned⟩ := yields.of_bind
      obtain rfl := returned.of_pure
      exact ⟨lead ▸ Nat.le_refl 5, tokens.names_empty, reaches_toInt_word v⟩
  | switch =>
    obtain ⟨words, -, returned⟩ := yields.of_bind
    obtain rfl := returned.of_pure
    refine ⟨?_, tokens.names_empty, fun displacement mem => ?_⟩
    · rw [lead]
      show 5 + 4 * (words.map Int32.toInt).length ≤ 1 + (4 + 4 * (words.map Int32.toInt).length)
      omega
    · obtain ⟨v, -, rfl⟩ := List.mem_map.mp mem
      exact reaches_toInt_word v

/-- **What is read as an instruction is admitted** in the number of bytes that are counted for it. -/
theorem admitted_of_yields {source size : Nat}
    (yields : (Instruction.read tokens source).Yields (i, size)) : Admitted tokens i size := by
  obtain ⟨opcode, -, yields⟩ := yields.of_bind
  split at yields
  · next form found =>
    obtain ⟨instruction, operand, returned⟩ := yields.of_bind
    obtain ⟨rfl, rfl⟩ := Prod.mk.inj returned.of_pure
    exact admitted_of_yields_operand (Form.ofOpcode?_eq_some_iff.mp found) operand
  · exact absurd yields Reader.not_yields_fail

end Instruction

end Hotpatch
