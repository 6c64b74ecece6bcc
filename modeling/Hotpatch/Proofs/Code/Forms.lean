import Hotpatch.Code.Form
import Hotpatch.Proofs.Binary.ReadBack
import Mathlib.Data.List.Nodup

/-! # Opcodes and forms

An opcode is read back as it was written, and leads to the one form that the table has for it.

* **`Opcode.Writable`** — the opcodes that can be told from the byte that starts two-byte ones.
* **`Form.ofOpcode?_eq_some_iff`** — the form of an opcode is the one listed with it.
* **`Form.leadWidth`** — how wide the opcode of a form is. -/

namespace Hotpatch

open Instruction (opcodeWidth)

/-! ## (1) Opcodes -/

namespace Opcode

/-- **Writable** opcodes: those of one byte that does not start two-byte ones, and those of two bytes
that start with it. -/
def Writable (opcode : Opcode) : Prop :=
  if opcode ≤ 0xff then opcode ≠ 0xfe else opcode >>> 8 = 0xfe
deriving Decidable

/-- An opcode is as many bytes as its width says. -/
@[simp] theorem length_write (opcode : Opcode) : opcode.write.length = opcodeWidth opcode := by
  rw [write, opcodeWidth]
  split <;> rfl

/-- An opcode takes at least one byte. -/
@[simp] theorem opcodeWidth_pos (opcode : Opcode) : 0 < opcodeWidth opcode := by
  rw [opcodeWidth]
  split <;> decide

/-- A writable opcode is read back. -/
theorem reads_of_writable {opcode : Opcode} (writable : opcode.Writable) :
    Opcode.read.Reads opcode.write opcode := by
  intro rest
  rw [Writable] at writable
  rw [write]
  split at writable
  · next small =>
    have bound : opcode.toNat ≤ 255 := UInt16.le_iff_toNat_le.mp small
    have same : opcode.toUInt8.toUInt16 = opcode := by
      apply UInt16.toNat_inj.mp
      rw [UInt8.toNat_toUInt16, UInt16.toNat_toUInt8]
      omega
    -- A single byte that starts two-byte opcodes is what writable opcodes exclude.
    have plain : opcode.toUInt8 ≠ escapeByte := by
      intro escape
      rw [escape] at same
      exact writable same.symm
    rw [if_pos small, read]
    refine (Step.bind_of_ok (Reader.reads_byte _ rest)).trans ?_
    rw [if_neg plain, same]
    rfl
  · next large =>
    have high : opcode.toNat / 256 = 254 := by
      have shifted := congrArg UInt16.toNat writable
      rwa [UInt16.toNat_shiftRight, Nat.shiftRight_eq_div_pow] at shifted
    -- The high byte is the escape, and the two bytes together are the opcode.
    have same : escapeByte.toUInt16 <<< 8 ||| opcode.toUInt8.toUInt16 = opcode := by
      apply UInt16.toNat_inj.mp
      rw [UInt16.toNat_or, UInt8.toNat_toUInt16, UInt16.toNat_toUInt8]
      show 254 <<< 8 ||| opcode.toNat % 2 ^ 8 = opcode.toNat
      rw [← Nat.shiftLeft_add_eq_or_of_lt (Nat.mod_lt _ (by decide))]
      omega
    rw [if_neg large, writable, read]
    refine (Step.bind_of_ok (Reader.reads_byte _ _)).trans ?_
    show (do let second ← Reader.byte; return escapeByte.toUInt16 <<< 8 ||| second.toUInt16 :
      Reader Opcode) _ = _
    refine (Step.bind_of_ok (Reader.reads_byte _ _)).trans ?_
    rw [same]
    rfl

end Opcode

/-! ## (2) The table -/

namespace Form

/-- No opcode is listed twice. -/
theorem nodup_table : (table.map (·.1)).Nodup := by decide +kernel

/-- All opcodes of the table are writable. -/
theorem writable_of_mem_table : ∀ entry ∈ table, entry.1.Writable := by decide +kernel

/-- **The form of an opcode** is the one that the table has for it. -/
theorem ofOpcode?_eq_some_iff {opcode : Opcode} {form : Form} :
    ofOpcode? opcode = some form ↔ (opcode, form) ∈ table := by
  rw [ofOpcode?, Option.map_eq_some_iff]
  constructor
  · rintro ⟨⟨found, _⟩, here, rfl⟩
    have same : found = opcode := by simpa using List.find?_some here
    exact same ▸ List.mem_of_find?_eq_some here
  · intro mem
    cases here : table.find? (·.1 == opcode) with
    | none =>
      have absent := List.find?_eq_none.mp here _ mem
      simp at absent
    | some entry =>
      have same : entry.1 = opcode := by simpa using List.find?_some here
      -- As no opcode is listed twice, the entry found is the one that was asked for.
      have one := List.inj_on_of_nodup_map nodup_table (List.mem_of_find?_eq_some here) mem same
      exact ⟨entry, rfl, congrArg Prod.snd one⟩

section Members

/-! What the table lists. -/

@[simp] theorem plain_mem_table (op : PlainOp) : (op.opcode, complete (.plain op)) ∈ table := by
  cases op <;> decide

theorem fixedSlot_mem_table {op : SlotOp} {base : Opcode} (fixed : op.fixedOpcode? = some base)
    {index : UInt16} (small : index ≤ 3) : (base + index, complete (.slot op index)) ∈ table := by
  have four : index = 0 ∨ index = 1 ∨ index = 2 ∨ index = 3 := by
    have bound : index.toNat ≤ 3 := UInt16.le_iff_toNat_le.mp small
    simp only [← UInt16.toNat_inj]
    show index.toNat = 0 ∨ index.toNat = 1 ∨ index.toNat = 2 ∨ index.toNat = 3
    omega
  cases op with
  | starg => cases fixed
  | _ =>
    obtain rfl := Option.some.inj fixed
    rcases four with rfl | rfl | rfl | rfl <;> decide

@[simp] theorem slotByte_mem_table (op : SlotOp) : (op.byteOpcode, slotByte op) ∈ table := by
  cases op <;> decide

@[simp] theorem slotWord_mem_table (op : SlotOp) : (op.wordOpcode, slotWord op) ∈ table := by
  cases op <;> decide

theorem fixedConstant_mem_table {value : Int32} (small : -1 ≤ value ∧ value ≤ 8) :
    (Opcode.constantFixed value, complete (.ldcI4 value)) ∈ table := by
  have low : -1 ≤ value.toInt := Int32.le_iff_toInt_le.mp small.1
  have high : value.toInt ≤ 8 := Int32.le_iff_toInt_le.mp small.2
  have fixed : value ∈ fixedConstants := by
    have ten : value.toInt = -1 ∨ value.toInt = 0 ∨ value.toInt = 1 ∨ value.toInt = 2
        ∨ value.toInt = 3 ∨ value.toInt = 4 ∨ value.toInt = 5 ∨ value.toInt = 6 ∨ value.toInt = 7
        ∨ value.toInt = 8 := by omega
    simp only [fixedConstants, List.mem_cons, ← Int32.toInt_inj, List.not_mem_nil, or_false]
    exact ten
  simp only [table, List.mem_append, List.mem_map]
  exact .inl (.inl (.inl (.inl (.inl (.inr ⟨value, fixed, rfl⟩)))))

@[simp] theorem invoke_mem_table (op : InvokeOp) : (op.opcode, invoke op) ∈ table := by
  cases op <;> decide

@[simp] theorem typed_mem_table (op : TypeOp) : (op.opcode, typed op) ∈ table := by
  cases op <;> decide

@[simp] theorem branch_mem_table (reach : Reach) (condition : Condition) :
    (reach.opcode condition, branch reach condition) ∈ table := by
  cases reach <;> cases condition <;> decide

end Members

/-- The **instruction** of an opcode that stands for a whole one. -/
def instruction? : Form → Option (Instruction Int)
  | complete instruction => some instruction
  | _ => none

/-- **Lead**: the width of the opcodes that a form is listed with. -/
def leadWidth : Form → Nat
  | complete instruction => instruction.width
  | slotWord _ => 2
  | _ => 1

/-- An opcode that is the whole instruction is as wide as that, the others are of one byte, but for
slots of two bytes. -/
theorem opcodeWidth_of_mem_table : ∀ entry ∈ table, opcodeWidth entry.1 = entry.2.leadWidth := by
  decide +kernel

end Form

end Hotpatch
