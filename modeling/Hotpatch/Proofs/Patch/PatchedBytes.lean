import Hotpatch.Proofs.Code.TokenBytes
import Hotpatch.Proofs.Patch.Prepending

/-! # The bytes of patched bodies

The code of a patched body is that of the preamble, and behind it the code of the body as it would be with a
table that has the operands of the preamble already.

* **`Instruction.recasts_encode`** — an instruction that starts later has the same bytes.
* **`Instruction.request?`** — the token that an instruction asks for.
* **`Body.StopsWith`** — where encoding stops, and the table it leaves.
* **`WellFormed.encode_patched`** — the bytes of a patched body, or its fault.
* **`WellFormed.encode_splice`** — what becomes of the code of a method that gets its preamble. -/

namespace Hotpatch

open TokenTable (Request answer requested)

/-- A fault as it is told of code that starts **later** by some bytes. -/
def Fault.later (size : Nat) : Fault → Fault
  | .branchOutOfRange source displacement => .branchOutOfRange (size + source) displacement
  | fault => fault

/-! ## (1) Instructions -/

namespace Instruction

/-- A displacement that is out of reach is so from wherever it is counted. -/
theorem encodeDisplacement_add (size source : Nat) (reach : Reach) (displacement : Int) :
    encodeDisplacement (size + source) reach displacement
      = (encodeDisplacement source reach displacement).mapError (Fault.later size) := by
  unfold encodeDisplacement
  cases reach <;> dsimp only <;> split <;> rfl

/-- **An instruction that starts later** has the same bytes, and the same fault but for where it is. -/
theorem recasts_encode (size source : Nat) (i : Instruction Int) :
    Step.Recasts (Fault.later size) (i.encode (size + source)) (i.encode source) := by
  have displaced (reach : Reach) (displacement : Int) :
      Step.Recasts (Fault.later size)
        (liftM (encodeDisplacement (size + source) reach displacement) : Assembler (List UInt8))
        (liftM (encodeDisplacement source reach displacement)) :=
    Step.recasts_attempt (encodeDisplacement_add size source reach displacement)
  cases i with
  | branch reach condition displacement =>
    exact (displaced reach displacement).bind fun _ => Step.recasts_pure _ _
  | switch displacements =>
    exact (Step.recasts_mapM fun displacement _ => displaced .long displacement).bind
      fun _ => Step.recasts_pure _ _
  | _ => exact fun _ => rfl

/-- The **request** of an instruction for a token, if it has one. -/
def request? {L : Type} : Instruction L → Option Request
  | invoke _ method => some (.method method)
  | typed _ type => some (.type type)
  | ldstr text => some (.string text)
  | _ => none

/-- What is requested by some instructions are their operands. -/
theorem requested_filterMap {L : Type} (instructions : List (Instruction L)) :
    requested (instructions.filterMap request?) = .collect operands instructions := by
  induction instructions with
  | nil => rfl
  | cons i rest ih =>
    have split : TokenTable.collect operands (i :: rest) = i.operands.append (.collect operands rest) := rfl
    rw [split, ← ih]
    cases i <;> rfl

end Instruction

/-! ## (2) Bodies -/

namespace Body

variable {b : Body} {p : Preamble} {t : MethodTarget} {registry : PatchRegistry} {first : Handle}

/-- Encoding **stops with** a fault at an instruction, when those in front of it were encoded and had left a
table. -/
def StopsWith (b : Body) (tokens : TokenTable) (fault : Fault) (left : TokenTable) : Prop :=
  ∃ front placed behind chunks, b.code = front ++ placed :: behind
    ∧ front.mapM (encodePlaced b.offsets) tokens = .ok (chunks, left)
    ∧ encodePlaced b.offsets placed left = .error fault

/-- What is encoded once nothing is in the way but displacements. -/
theorem encode_eq (current : b.offsetsAreCurrent = true) (small : b.codeSize ≤ maxCodeSize) :
    b.encode = b.code.mapM (encodePlaced b.offsets) >>= fun chunks => pure chunks.flatten := by
  unfold encode
  rw [current, if_neg (by decide), if_neg (Nat.not_lt.mpr small)]

/-- **Where encoding stops** when nothing is in the way but displacements: at one that is out of range. -/
theorem WellFormed.exists_stopsWith (wf : b.WellFormed) (current : b.offsetsAreCurrent = true)
    (small : b.codeSize ≤ maxCodeSize) {tokens : TokenTable} {fault : Fault}
    (failed : b.encode tokens = .error fault) :
    ∃ source displacement left, fault = .branchOutOfRange source displacement
      ∧ b.StopsWith tokens fault left := by
  rw [encode_eq current small] at failed
  have stopped : b.code.mapM (encodePlaced b.offsets) tokens = .error fault := by
    cases outcome : b.code.mapM (encodePlaced b.offsets) tokens with
    | error other =>
      rw [Step.bind_of_error outcome] at failed
      exact congrArg Except.error (Except.error.inj failed)
    | ok r =>
      rw [Step.bind_of_ok outcome] at failed
      cases failed
  obtain ⟨front, placed, behind, chunks, left, code, before, fails⟩ := Step.exists_of_mapM_eq_error stopped
  have mem : placed ∈ b.code := code ▸ List.mem_append_right front List.mem_cons_self
  have decides := Instruction.decides_encode placed.offset (b.relative placed)
  rw [← wf.encodePlaced_eq mem] at decides
  cases reach : (b.relative placed).outOfReach? placed.offset with
  | none =>
    rw [reach] at decides
    obtain ⟨chunk, after, done⟩ := decides left
    cases done.symm.trans fails
  | some other =>
    rw [reach] at decides
    obtain rfl : other = fault := Except.error.inj ((decides left).symm.trans fails)
    obtain ⟨displacement, told⟩ := Instruction.exists_of_outOfReach? reach
    exact ⟨placed.offset, displacement, left, told, front, placed, behind, chunks, code, before, fails⟩

section Patched

variable (wf : b.WellFormed) (current : b.offsetsAreCurrent = true)
  (below : ∀ i ∈ p.instructions, ∀ target ∈ i.targets, target.index < b.code.length)

include wf current below

/-- **An old instruction behind a preamble** is encoded as it was, and its fault is told of later. -/
theorem WellFormed.recasts_encodePlaced {placed : Placed} (mem : placed ∈ b.code) :
    Step.Recasts (Fault.later p.size)
      (encodePlaced (b.patched p).offsets { placed with offset := p.size + placed.offset })
      (encodePlaced b.offsets placed) := by
  rw [(wf.patched below).encodePlaced_eq (mem_code_patched current mem),
    wf.relative_patched current below mem, wf.encodePlaced_eq mem]
  exact Instruction.recasts_encode _ _ _

/-- The same for a part of the old code. -/
theorem WellFormed.recasts_mapM {code : List Placed} (part : ∀ placed ∈ code, placed ∈ b.code) :
    Step.Recasts (Fault.later p.size)
      ((code.map fun placed => { placed with offset := p.size + placed.offset }).mapM
        (encodePlaced (b.patched p).offsets))
      (code.mapM (encodePlaced b.offsets)) := by
  rw [List.mapM_map]
  exact Step.recasts_mapM fun placed mem => wf.recasts_encodePlaced current below (part placed mem)

/-- **The preamble of a method is encoded**, and leaves a table that has its operands. -/
theorem WellFormed.exists_chunks_of_build (built : Preamble.build t registry first = .ok p)
    (small : (b.patched p).codeSize ≤ maxCodeSize) (tokens : TokenTable) :
    ∃ chunks, (b.placedPreamble p).mapM (encodePlaced (b.patched p).offsets) tokens
        = .ok (chunks, (answer (p.instructions.filterMap Instruction.request?) tokens).2)
      ∧ List.Forall₂ (fun placed chunk => chunk.length = placed.instruction.width
        ∧ ∃ token, chunk = ((b.patched p).relative placed).bytesWith token) (b.placedPreamble p) chunks := by
  have inCode (placed : Placed) (mem : placed ∈ b.placedPreamble p) : placed ∈ (b.patched p).code := by
    rw [code_patched current]
    exact List.mem_append_left _ mem
  have decides : ((b.placedPreamble p).mapM (encodePlaced (b.patched p).offsets)).Decides none := by
    have none : (b.placedPreamble p).findSome? (fun placed =>
        ((b.patched p).relative placed).outOfReach? placed.offset) = .none :=
      List.findSome?_eq_none_iff.mpr fun _ mem =>
        wf.outOfReach?_placedPreamble current below built small mem
    rw [← none]
    refine Assembler.Decides.mapM fun placed mem => ?_
    rw [(wf.patched below).encodePlaced_eq (inCode placed mem)]
    exact Instruction.decides_encode placed.offset _
  obtain ⟨chunks, left, done⟩ := decides tokens
  have all := Assembler.Assembles.mapM fun placed (mem : placed ∈ b.placedPreamble p) =>
    (wf.patched below).assembles_chunk (inCode placed mem)
  obtain ⟨rfl, meant⟩ := all tokens chunks left done
  refine ⟨chunks, ?_, meant _ (.refl _)⟩
  have operands : TokenTable.collect (fun placed => placed.instruction.operands) (b.placedPreamble p)
      = .collect Instruction.operands p.instructions := by
    rw [← TokenTable.collect_map, map_instruction_placedPreamble]
  rw [done, TokenTable.answer_snd, Instruction.requested_filterMap, operands]

/-- A patched body and the body **stop at the same instruction**, and leave the same table. -/
theorem WellFormed.stopsWith_patched {tokens interned left : TokenTable} {chunks : List (List UInt8)}
    (front : (b.placedPreamble p).mapM (encodePlaced (b.patched p).offsets) tokens = .ok (chunks, interned))
    {fault : Fault} (stops : b.StopsWith interned fault left) :
    (b.patched p).StopsWith tokens (fault.later p.size) left := by
  obtain ⟨before, placed, behind, others, code, done, fails⟩ := stops
  have inCode : ∀ other ∈ before ++ [placed], other ∈ b.code := by
    intro other mem
    rw [code, List.append_cons]
    exact List.mem_append_left _ mem
  have run := wf.recasts_mapM current below
    (fun other mem => inCode other (List.mem_append_left _ mem)) interned
  have stop := wf.recasts_encodePlaced current below (inCode placed List.mem_concat_self) left
  rw [done] at run
  rw [fails] at stop
  have whole := code_patched (p := p) current
  rw [code, List.map_append, List.map_cons, ← List.append_assoc] at whole
  refine ⟨_, _, _, chunks ++ others, whole, ?_, stop⟩
  rw [List.mapM_append, Step.bind_of_ok front, Step.bind_of_ok run]
  rfl

/-- **The code of a patched body** is that of the preamble and behind it that of the body, encoded with the
table that the preamble left. If that fails, so does this, and for the same branch. -/
theorem WellFormed.encode_patched (small : (b.patched p).codeSize ≤ maxCodeSize)
    {tokens interned : TokenTable} {chunks : List (List UInt8)}
    (front : (b.placedPreamble p).mapM (encodePlaced (b.patched p).offsets) tokens
      = .ok (chunks, interned)) :
    (b.patched p).encode tokens
      = ((b.encode interned).map fun r => (chunks.flatten ++ r.1, r.2)).mapError (Fault.later p.size) := by
  have smaller : b.codeSize ≤ maxCodeSize := by
    rw [codeSize_patched current] at small
    omega
  have run := wf.recasts_mapM current below (fun _ mem => mem) interned
  rw [encode_eq current_patched small, encode_eq current smaller, code_patched current, List.mapM_append]
  cases behind : b.code.mapM (encodePlaced b.offsets) interned with
  | error fault =>
    rw [behind] at run
    rw [Step.bind_of_error behind]
    exact Step.bind_of_error ((Step.bind_of_ok front).trans (Step.bind_of_error run))
  | ok r =>
    obtain ⟨others, left⟩ := r
    rw [behind] at run
    rw [Step.bind_of_ok behind]
    refine (Step.bind_of_ok ((Step.bind_of_ok front).trans (Step.bind_of_ok run))).trans ?_
    rw [List.flatten_append]
    rfl

omit below in
/-- The first instruction of a body starts at zero. -/
theorem WellFormed.offsetOf_first (starts : b.first? = some first) : b.offsetOf first = 0 := by
  obtain ⟨placed, here, rfl⟩ := Option.map_eq_some_iff.mp starts
  have zero : b.code[0]? = some placed := List.head?_eq_getElem?.symm.trans here
  rw [wf.offsetOf_eq current zero, startOf_zero]

/-- **The branch of a preamble** is the fourth instruction, behind fifteen bytes, and leads from its end to
the end of the preamble. -/
theorem WellFormed.branch_of_build (starts : b.first? = some first)
    (built : Preamble.build t registry first = .ok p) (small : (b.patched p).codeSize ≤ maxCodeSize)
    {chunks : List (List UInt8)}
    (meant : List.Forall₂ (fun placed chunk => chunk.length = placed.instruction.width
      ∧ ∃ token, chunk = ((b.patched p).relative placed).bytesWith token) (b.placedPreamble p) chunks) :
    ∃ before behind word, p.instructions = before ++ .branch .long .isFalse first :: behind
      ∧ (∀ i ∈ before ++ behind, i.targets = []) ∧ (before.map Instruction.width).sum = 15
      ∧ (chunks.flatten.drop 15).take 5 = (Reach.long.opcode .isFalse).write ++ Binary.write (word : Int32)
      ∧ word.toInt = (p.size : Int) - 20 := by
  have shape := Preamble.instructions_of_build built
  have fourth : (b.placedPreamble p)[3]?
      = some ⟨⟨b.code.length + 3⟩, 15, .branch .long .isFalse first⟩ := by
    rw [placedPreamble, getElem?_layOut, getElem?_enlist, widths_enlist, shape]
    rfl
  obtain ⟨chunk, there, length, token, bytes⟩ := exists_of_forall₂ meant fourth
  have start : startOf (chunks.map List.length) 3 = 15 := by
    rw [map_length_of_widths (meant.imp fun _ _ both => both.1), placedPreamble, widths_layOut,
      widths_enlist, shape]
    rfl
  have slice := take_drop_flatten there
  rw [start, length] at slice
  -- The body starts where the preamble ends, and the branch ends behind twenty bytes.
  have displacement : (b.patched p).relative ⟨⟨b.code.length + 3⟩, 15, .branch .long .isFalse first⟩
      = .branch .long .isFalse ((p.size : Int) - 20) := by
    rw [relative, Instruction.relabel_branch, wf.offsetOf_patched current below (wf.first_lt starts),
      wf.offsetOf_first current starts]
    rfl
  have room : p.size ≤ 2147483647 := by
    rw [codeSize_patched current, maxCodeSize] at small
    omega
  refine ⟨_, _, Int32.ofInt ((p.size : Int) - 20), shape, ?_, rfl, ?_, ?_⟩
  · intro i mem
    rcases List.mem_append.mp mem with asking | dispatching
    · simp only [Preamble.keys, List.cons_append, List.nil_append, List.mem_cons, List.not_mem_nil,
        or_false] at asking
      rcases asking with rfl | rfl | rfl <;> rfl
    · exact List.flatMap_eq_nil_iff.mp (Preamble.flatMap_targets_dispatch t registry) i dispatching
  · refine slice.trans ?_
    rw [bytes, displacement]
    rfl
  · exact Int32.toInt_ofInt_of_le (by omega) (by omega)

end Patched

/-- **The code of a method with its preamble.** It is the code of the preamble, and behind it exactly the code
that the body has with a table which got the operands of the preamble first, in their order; the table that is
left is the same. If a branch of the body is out of range, so it is behind the preamble, with the same
displacement, and both stop at it with the same table. The one branch of the preamble is a long one, and leads
from its end behind twenty bytes to the end of the preamble. -/
theorem WellFormed.encode_splice (wf : b.WellFormed) (current : b.offsetsAreCurrent = true)
    (starts : b.first? = some first) (built : Preamble.build t registry first = .ok p)
    (small : (b.splice p).1.recomputeOffsets.codeSize ≤ maxCodeSize) (tokens : TokenTable) :
    let spliced := (b.splice p).1.recomputeOffsets
    let interned := (answer (p.instructions.filterMap Instruction.request?) tokens).2
    (∃ s, (b.splice p).2 = .ok s)
    ∧ ((∃ source displacement left,
        b.encode interned = .error (.branchOutOfRange source displacement)
        ∧ b.StopsWith interned (.branchOutOfRange source displacement) left
        ∧ spliced.encode tokens = .error (.branchOutOfRange (p.size + source) displacement)
        ∧ spliced.StopsWith tokens (.branchOutOfRange (p.size + source) displacement) left)
      ∨ ∃ chunks bytes left, b.encode interned = .ok (bytes, left)
        ∧ spliced.encode tokens = .ok (chunks.flatten ++ bytes, left)
        ∧ (spliced.code.take p.instructions.length).mapM (encodePlaced spliced.offsets) tokens
          = .ok (chunks, interned)
        ∧ chunks.flatten.length = p.size
        ∧ ∃ before behind word, p.instructions = before ++ .branch .long .isFalse first :: behind
          ∧ (∀ i ∈ before ++ behind, i.targets = []) ∧ (before.map Instruction.width).sum = 15
          ∧ (chunks.flatten.drop 15).take 5 = (Reach.long.opcode .isFalse).write ++ Binary.write (word : Int32)
          ∧ word.toInt = (chunks.flatten.length : Int) - 20) := by
  have below := wf.targets_lt_of_build starts built
  rw [wf.splice_eq_prepend starts built] at small ⊢
  intro spliced interned
  obtain ⟨chunks, front, meant⟩ := wf.exists_chunks_of_build current below built small tokens
  have whole := wf.encode_patched current below small front
  refine ⟨⟨_, rfl⟩, ?_⟩
  cases outcome : b.encode interned with
  | error fault =>
    have smaller : b.codeSize ≤ maxCodeSize := by
      have size := codeSize_patched (p := p) current
      rw [Body.patched] at size
      dsimp only at small
      omega
    obtain ⟨source, displacement, left, rfl, stops⟩ := wf.exists_stopsWith current smaller outcome
    rw [outcome] at whole
    exact .inl ⟨source, displacement, left, rfl, stops, whole,
      wf.stopsWith_patched current below front stops⟩
  | ok r =>
    obtain ⟨bytes, left⟩ := r
    rw [outcome] at whole
    have size : chunks.flatten.length = p.size := by
      rw [List.length_flatten, map_length_of_widths (meant.imp fun _ _ both => both.1), placedPreamble,
        widths_layOut, widths_enlist, Preamble.size]
    refine .inr ⟨chunks, bytes, left, rfl, whole, ?_, size, ?_⟩
    · have part : (b.patched p).code.take p.instructions.length = b.placedPreamble p := by
        rw [code_patched current, ← length_placedPreamble (b := b), List.take_left]
      rw [← part] at front
      exact front
    · rw [size]
      exact wf.branch_of_build current below starts built small meant

/-- A body that branches back, and names a string that its preamble names too. -/
def echo : Body :=
  { empty with
    code := [⟨⟨1⟩, 0, .ldstr "Echo"⟩, ⟨⟨0⟩, 5, .branch .short .isFalse ⟨1⟩⟩, ⟨⟨2⟩, 7, .plain .ret⟩] }

/-- Behind the 43 bytes of the preamble its string is in the second row, and its branch is the same. -/
theorem WellFormed.encode_splice_echo :
    echo.WellFormed ∧ echo.offsetsAreCurrent = true ∧ echo.first? = some ⟨1⟩ ∧ ∃ p,
      Preamble.build ⟨"Foo", "Echo", [], true, .void⟩ (.standard "Hotfix" "Registry") ⟨1⟩ = .ok p
      ∧ (echo.splice p).1.recomputeOffsets.codeSize ≤ maxCodeSize
      ∧ ∃ front left, (echo.splice p).1.recomputeOffsets.encode .empty
          = .ok (front ++ [0x72, 2, 0, 0, 0x70, 0x2c, 0xf9, 0x2a], left)
        ∧ front.length = 43 ∧ left.strings = ["Foo", "Echo"] := by
  have wf : echo.WellFormed := ⟨by decide, by decide⟩
  obtain ⟨p, built, size, left, known, strings⟩ : ∃ p,
      Preamble.build ⟨"Foo", "Echo", [], true, .void⟩ (.standard "Hotfix" "Registry") ⟨1⟩ = .ok p
      ∧ p.size = 43 ∧ ∃ left, echo.encode (answer (p.instructions.filterMap Instruction.request?) .empty).2
        = .ok ([0x72, 2, 0, 0, 0x70, 0x2c, 0xf9, 0x2a], left) ∧ left.strings = ["Foo", "Echo"] :=
    ⟨_, Preamble.build_eq_ok_iff.mpr ⟨by decide, rfl⟩, rfl, _, rfl, rfl⟩
  have small : (echo.splice p).1.recomputeOffsets.codeSize ≤ maxCodeSize := by
    have whole := codeSize_patched (b := echo) (p := p) rfl
    rw [size] at whole
    rw [wf.splice_eq_prepend rfl built]
    exact whole ▸ (by decide)
  obtain ⟨-, outcome⟩ := wf.encode_splice rfl rfl built small .empty
  refine ⟨wf, rfl, rfl, p, built, small, ?_⟩
  rcases outcome with ⟨_, _, _, failed, -⟩ | ⟨chunks, bytes, _, encoded, spliced, -, length, -⟩
  · cases known.symm.trans failed
  · cases known.symm.trans encoded
    exact ⟨chunks.flatten, left, spliced, length.trans size, strings⟩

end Body

end Hotpatch
