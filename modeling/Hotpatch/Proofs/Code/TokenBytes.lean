import Hotpatch.Proofs.Code.RoundTrip

/-! # The bytes of tokens

What the code of a body owes to the token table: nothing but the tokens of its operands, each four bytes
behind an opcode of one byte.

* **`Instruction.bytesWith`** — the bytes of an instruction, its token left open; `assembles_bytesWith`
  says that encoding fills one in.
* **`Body.InToken`** — the offsets that belong to tokens.
* **`WellFormed.encode_agree`** — two tables give code of one length, with the same bytes outside of
  tokens. -/

namespace Hotpatch

open Binary (write)
open Instruction (Written)

/-! ## (1) Instructions -/

namespace Instruction

/-- An instruction that **has a token** for its operand. -/
def hasToken {L : Type} : Instruction L → Bool
  | invoke _ _ | typed _ _ | ldstr _ => true
  | _ => false

/-- Labels make no difference to that. -/
@[simp] theorem hasToken_relabel {L L' : Type} (f : L → L') (i : Instruction L) :
    (i.relabel f).hasToken = i.hasToken := by
  cases i <;> rfl

/-- The **bytes with a token** for the operand, if the instruction has one. -/
def bytesWith (token : Token) : Instruction Int → List UInt8
  | plain op => op.opcode.write
  | slot op index => encodeSlot op index
  | ldcI4 value => encodeConstant value
  | ldcI8 value => Opcode.constantLong.write ++ write value
  | ldcR4 bits => Opcode.constantSingle.write ++ write bits
  | ldcR8 bits => Opcode.constantDouble.write ++ write bits
  | invoke op _ => op.opcode.write ++ write token
  | typed op _ => op.opcode.write ++ write token
  | ldstr _ => Opcode.ldstr.write ++ write token
  | branch reach condition displacement => (reach.opcode condition).write ++ reach.bytes displacement
  | switch displacements =>
    Opcode.switch.write ++ writeLength displacements.length ++ (displacements.map Reach.long.bytes).flatten

/-- **Encoding fills in a token**, and nothing else depends on the table. -/
theorem assembles_bytesWith (source : Nat) (i : Instruction Int) :
    (i.encode source).Assembles i.operands fun _ bytes => ∃ token, bytes = i.bytesWith token := by
  cases i with
  | invoke op method =>
    intro t bytes t' done
    obtain ⟨rfl, rfl⟩ := Prod.mk.inj (Except.ok.inj done)
    exact ⟨rfl, fun _ _ => ⟨_, rfl⟩⟩
  | typed op type =>
    intro t bytes t' done
    obtain ⟨rfl, rfl⟩ := Prod.mk.inj (Except.ok.inj done)
    exact ⟨rfl, fun _ _ => ⟨_, rfl⟩⟩
  | ldstr text =>
    intro t bytes t' done
    obtain ⟨rfl, rfl⟩ := Prod.mk.inj (Except.ok.inj done)
    exact ⟨rfl, fun _ _ => ⟨_, rfl⟩⟩
  | branch reach condition displacement =>
    refine (assembles_encodeDisplacement source reach displacement).bind_pure ?_
    rintro u bytes ⟨-, rfl⟩
    exact ⟨⟨0⟩, rfl⟩
  | switch displacements =>
    -- Displacements ask for no tokens.
    have all := Assembler.Assembles.mapM fun displacement (_ : displacement ∈ displacements) =>
      assembles_encodeDisplacement source .long displacement
    rw [TokenTable.collect_empty] at all
    refine all.bind_pure fun u chunks written => ?_
    obtain ⟨-, rfl⟩ := (forall₂_iff_map fun _ _ _ => Iff.rfl).mp written
    exact ⟨⟨0⟩, rfl⟩
  | _ => exact Assembler.assembles_pure fun _ => ⟨⟨0⟩, rfl⟩

/-- **Two tokens make no difference** to the opcode, nor behind the instruction. -/
theorem getElem?_bytesWith {i : Instruction Int} {position : Nat}
    (outside : i.hasToken = true → position = 0 ∨ 5 ≤ position) (token token' : Token) :
    (i.bytesWith token)[position]? = (i.bytesWith token')[position]? := by
  -- One byte of opcode, and four for the token, whatever it is.
  have apart (opcode : Opcode) (single : opcode.write.length = 1) (has : i.hasToken = true) :
      (opcode.write ++ write token)[position]? = (opcode.write ++ write token')[position]? := by
    rcases outside has with front | behind
    · rw [front, List.getElem?_append_left (by omega), List.getElem?_append_left (by omega)]
    · have size (any : Token) : (opcode.write ++ write any).length = 5 := by
        rw [List.length_append, single]
        rfl
      rw [List.getElem?_eq_none (by rw [size]; exact behind),
        List.getElem?_eq_none (by rw [size]; exact behind)]
  cases i with
  | invoke op method => exact apart op.opcode (by cases op <;> rfl) rfl
  | typed op type => exact apart op.opcode (by cases op <;> rfl) rfl
  | ldstr text => exact apart Opcode.ldstr rfl rfl
  | _ => rfl

end Instruction

/-- Two meanings of what an assembler step gives hold together. -/
theorem Assembler.Assembles.and {α : Type} {x : Assembler α} {operands : TokenTable}
    {means means' : TokenTable → α → Prop} (first : x.Assembles operands means)
    (second : x.Assembles operands means') :
    x.Assembles operands fun u value => means u value ∧ means' u value := by
  intro t value t' done
  obtain ⟨table, meant⟩ := first t value t' done
  obtain ⟨-, meant'⟩ := second t value t' done
  exact ⟨table, fun u grown => ⟨meant u grown, meant' u grown⟩⟩

/-! ## (2) Bodies -/

namespace Body

variable {b : Body} {t t' u u' : TokenTable} {bytes bytes' : List UInt8}

/-- An offset **in a token**: one of the four behind the opcode of an instruction that has one. -/
def InToken (b : Body) (offset : Nat) : Prop :=
  ∃ placed ∈ b.code, placed.instruction.hasToken = true
    ∧ placed.offset < offset ∧ offset < placed.offset + 5

/-- **Chunks with a token each** agree outside of these. -/
theorem getElem?_flatten_of_bytesWith {start : Nat} {code : List Placed} {chunks chunks' : List (List UInt8)}
    (laidOut : isLaidOut start code = true)
    (filled : List.Forall₂ (fun placed chunk => chunk.length = placed.instruction.width
      ∧ ∃ token, chunk = (b.relative placed).bytesWith token) code chunks)
    (filled' : List.Forall₂ (fun placed chunk => chunk.length = placed.instruction.width
      ∧ ∃ token, chunk = (b.relative placed).bytesWith token) code chunks') {position : Nat}
    (outside : ∀ placed ∈ code, placed.instruction.hasToken = true →
      ¬ (placed.offset < start + position ∧ start + position < placed.offset + 5)) :
    chunks.flatten[position]? = chunks'.flatten[position]? := by
  induction filled generalizing start chunks' position with
  | nil =>
    cases filled'
    rfl
  | @cons placed chunk rest others first _ ih =>
    obtain ⟨chunk', others', first', rest', rfl⟩ := List.forall₂_cons_left_iff.mp filled'
    obtain ⟨size, token, same⟩ := first
    obtain ⟨size', token', same'⟩ := first'
    rw [isLaidOut, Bool.and_eq_true, beq_iff_eq] at laidOut
    obtain ⟨here, behind⟩ := laidOut
    rw [List.flatten_cons, List.flatten_cons]
    by_cases inside : position < placed.instruction.width
    · -- In the first chunk, the opcode is where the instruction starts.
      rw [List.getElem?_append_left (by omega), List.getElem?_append_left (by omega), same, same']
      apply Instruction.getElem?_bytesWith
      intro has
      rw [relative, Instruction.hasToken_relabel] at has
      have apart := outside placed List.mem_cons_self has
      omega
    · rw [List.getElem?_append_right (by omega), List.getElem?_append_right (by omega), size, size']
      apply ih behind rest'
      intro other mem has
      have apart := outside other (List.mem_cons_of_mem placed mem) has
      omega

/-- What encoding an instruction of a body gives: as many bytes as it is wide, with some token in them. -/
theorem WellFormed.assembles_chunk (wf : b.WellFormed) {placed : Placed} (mem : placed ∈ b.code) :
    (encodePlaced b.offsets placed).Assembles placed.instruction.operands fun _ chunk =>
      chunk.length = placed.instruction.width ∧ ∃ token, chunk = (b.relative placed).bytesWith token := by
  have filled := Instruction.assembles_bytesWith placed.offset (b.relative placed)
  rw [← wf.encodePlaced_eq mem, relative, Instruction.operands_relabel] at filled
  have both := (wf.assembles_encodePlaced mem).and filled
  apply both.imp
  rintro v chunk ⟨written, token⟩
  rw [written.length_eq, relative, Instruction.width_relabel]
  exact ⟨rfl, token⟩

/-- **The code is as long as the body says**, whatever the table. -/
theorem WellFormed.length_of_encode (wf : b.WellFormed) (done : b.encode t = .ok (bytes, u)) :
    bytes.length = b.codeSize := by
  obtain ⟨-, meant⟩ := wf.assembles_encode t bytes u done
  obtain ⟨current, -, chunks, rfl, written⟩ := meant u (.refl u)
  rw [length_of_written written, codeSize_eq current]

/-- **Two tables agree** on the length of the code and on every byte outside of tokens. -/
theorem WellFormed.encode_agree (wf : b.WellFormed) (done : b.encode t = .ok (bytes, u))
    (done' : b.encode t' = .ok (bytes', u')) :
    bytes.length = bytes'.length ∧ ∀ offset, ¬ b.InToken offset → bytes[offset]? = bytes'[offset]? := by
  have all := Assembler.Assembles.mapM fun placed (mem : placed ∈ b.code) => wf.assembles_chunk mem
  obtain ⟨current, -, chunks, code, rfl⟩ := exists_chunks_of_encode done
  obtain ⟨-, -, chunks', code', rfl⟩ := exists_chunks_of_encode done'
  have filled := (all t chunks u code).2 u (.refl u)
  have filled' := (all t' chunks' u' code').2 u' (.refl u')
  refine ⟨?_, ?_⟩
  · rw [wf.length_of_encode done, wf.length_of_encode done']
  · intro offset outside
    apply getElem?_flatten_of_bytesWith current filled filled'
    intro placed mem has inToken
    rw [Nat.zero_add] at inToken
    exact outside ⟨placed, mem, has, inToken⟩

end Body

end Hotpatch
