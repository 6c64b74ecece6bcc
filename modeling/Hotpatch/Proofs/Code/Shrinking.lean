import Hotpatch.Proofs.Code.Acceptance

/-! # Decoded code shrinks

Code may be read in longer forms than it is written in, so what is decoded is laid out anew. Every
instruction takes no more bytes than it took, and therefore nothing moves back and nothing moves apart.

* **`GreedyCut.admitted`**, **`start_eq`** — what the pieces of a cut take up, and where.
* **`Follows.widths_le`** — the instructions of decoded code take no more.
* **`DecodedCode.Shrinks`** — decoded code in which all distances shrink.
* **`decodeCode_shrinks`** — all decoded code does. -/

namespace Hotpatch

open Body
open Instruction (Admitted)

variable {tokens : TokenTable} {bytes : List UInt8} {pieces : List Piece}

/-! ## (1) Pieces -/

namespace GreedyCut

variable {start : Nat} {stop? : Option (Nat × Fault)}

/-- Each piece has an instruction that is admitted in its bytes. -/
theorem admitted (cut : GreedyCut tokens start bytes pieces stop?) :
    ∀ p ∈ pieces, Admitted tokens p.instruction p.size := by
  induction cut with
  | done | stuck => nofun
  | @next start size front rest i pieces stop? reads behind ih =>
    obtain ⟨rfl, -⟩ := Instruction.length_of_read reads
    exact List.forall_mem_cons.mpr ⟨Instruction.admitted_of_yields ⟨_, rest, reads⟩, ih⟩

/-- Each piece starts behind all before it. -/
theorem start_eq (cut : GreedyCut tokens start bytes pieces stop?) {index : Nat} {p : Piece}
    (here : pieces[index]? = some p) : p.start = start + startOf (pieces.map (·.size)) index := by
  -- A table of the pieces has them where they start, and where their sizes say.
  have laid := OffsetTable.getElem?_laidOut start (pieces.map Piece.item) index
  rw [cut.laidOut_eq, List.getElem?_map, List.getElem?_map, here, List.map_map] at laid
  exact (Prod.mk.inj (Option.some.inj laid)).1

/-- Each piece stops in front of all behind it. -/
theorem stop_eq (cut : GreedyCut tokens start bytes pieces stop?) {index : Nat} {p : Piece}
    (here : pieces[index]? = some p) : p.stop = start + startOf (pieces.map (·.size)) (index + 1) := by
  have size : (pieces.map (·.size))[index]? = some p.size := by
    rw [List.getElem?_map, here, Option.map_some]
  rw [Piece.stop, cut.start_eq here, startOf_succ size, Nat.add_assoc]

/-- A jump to the start of a piece lands at this piece. -/
theorem landing_eq (cut : GreedyCut tokens 0 bytes pieces stop?) {index : Nat} {p : Piece}
    (here : pieces[index]? = some p) : landing pieces p.start = index := by
  rw [landing, startsAt, Int.toNat_natCast, cut.index?_lookup_eq_some_iff.mpr ⟨p, here, rfl⟩, Option.getD_some]

end GreedyCut

/-! ## (2) Layouts -/

namespace DecodedCode

variable {d : DecodedCode}

/-- **No instruction takes more bytes** than its piece did. -/
theorem Follows.widths_le (follows : d.Follows pieces) (cut : GreedyCut tokens 0 bytes pieces none) :
    List.Forall₂ (· ≤ ·) (widths d.body.code) (pieces.map (·.size)) := by
  rw [widths, List.forall₂_map_left_iff, List.forall₂_map_right_iff, List.forall₂_iff_get]
  refine ⟨follows.length, fun index bound bound' => ?_⟩
  obtain ⟨offset, target, placed, -⟩ := follows.placed index _ (List.getElem?_eq_getElem bound')
  obtain ⟨_, same⟩ := List.getElem?_eq_some_iff.mp placed
  rw [List.get_eq_getElem, List.get_eq_getElem, same, Instruction.width_relabel]
  exact (cut.admitted _ (List.getElem_mem bound')).width_le

/-- **All distances shrink** between the old layout and the new one. -/
theorem Follows.shrinksTo (follows : d.Follows pieces) (cut : GreedyCut tokens 0 bytes pieces none)
    {near : Nat} (inside : near ≤ pieces.length) (far : Nat) :
    ShrinksTo (startOf (pieces.map (·.size)) far - startOf (pieces.map (·.size)) near)
      (startOf (widths d.body.code) far - startOf (widths d.body.code) near) := by
  have count : (widths d.body.code).length = pieces.length := (List.length_map _).trans follows.length
  exact startOf_shrinksTo (follows.widths_le cut) (widths_pos d.body.code) (count ▸ inside) far

/-! ## (3) Displacements -/

/-- A displacement of the piece at an index, **recomputed**: it is counted in the new layout, up to the piece
at which the jump lands. -/
def recomputed (d : DecodedCode) (pieces : List Piece) (index : Nat) (p : Piece) (displacement : Int) : Int :=
  startOf (widths d.body.code) (landing pieces (p.stop + displacement))
    - startOf (widths d.body.code) (index + 1)

variable {index : Nat} {p : Piece}

/-- **A jump that lands** at a piece is recomputed to one at the instruction of this piece. -/
theorem recomputed_eq (cut : GreedyCut tokens 0 bytes pieces none) {there : Nat} {q : Piece}
    (inCut : pieces[there]? = some q) {displacement : Int} (lands : (q.start : Int) = p.stop + displacement) :
    d.recomputed pieces index p displacement
      = startOf (widths d.body.code) there - startOf (widths d.body.code) (index + 1) := by
  rw [recomputed, ← lands, cut.landing_eq inCut]

/-- **Displacements shrink** when they are recomputed. -/
theorem Follows.recomputed_shrinks (follows : d.Follows pieces) (cut : GreedyCut tokens 0 bytes pieces none)
    (here : pieces[index]? = some p) {displacement : Int} (hit : displacement ∈ p.instruction.targets) :
    ShrinksTo displacement (d.recomputed pieces index p displacement) := by
  obtain ⟨_, _, -, targets⟩ := follows.placed index p here
  obtain ⟨there, q, inCut, lands, -⟩ := targets displacement hit
  -- In the code it was counted between the same two pieces as it is now.
  have before : displacement = startOf (pieces.map (·.size)) there
      - startOf (pieces.map (·.size)) (index + 1) := by
    have start := cut.start_eq inCut
    have stop := cut.stop_eq here
    omega
  rw [recomputed_eq cut inCut lands, before]
  exact follows.shrinksTo cut (List.getElem?_eq_some_iff.mp here).1 there

/-- **A branch is written** with its displacement recomputed, as long as the handles number all instructions.
-/
theorem Follows.encodePlaced_eq (follows : d.Follows pieces) (cut : GreedyCut tokens 0 bytes pieces none)
    (canonical : d.body.Canonical) (few : pieces.length ≤ 4294967296) (here : pieces[index]? = some p)
    {placed : Placed} (inCode : d.body.code[index]? = some placed) :
    encodePlaced d.body.offsets placed
      = (p.instruction.relabel (d.recomputed pieces index p)).encode placed.offset := by
  have wf := canonical.wellFormed
  obtain ⟨_, target, found, targets⟩ := follows.placed index p here
  have form : placed.instruction = p.instruction.relabel target := by
    rw [Option.some.inj (inCode.symm.trans found)]
  have same : d.body.relative placed = p.instruction.relabel (d.recomputed pieces index p) := by
    rw [relative, Body.stop_eq follows.current inCode, form, Instruction.relabel_relabel]
    refine Instruction.relabel_congr fun displacement hit => ?_
    obtain ⟨there, q, inCut, lands, -, named⟩ := targets displacement hit
    -- Its handle is the number of the piece at which the jump lands, so this is the offset that is looked up.
    obtain ⟨offset, _, inCode', -⟩ := follows.placed there q inCut
    have start := wf.offsetOf_of_mem (List.mem_of_getElem? inCode')
    rw [offsetsAreCurrent_iff.mp follows.current _ _ inCode'] at start
    rw [named few, recomputed_eq cut inCut lands, start]
  rw [wf.encodePlaced_eq (List.mem_of_getElem? inCode), same]

/-- Decoded code **shrinks** the pieces it comes from: no instruction starts later than it did, and all
distances shrink. Each branch keeps its form and leads to the same instruction, over a displacement that has
shrunk and that is within reach; it is written with this displacement. -/
structure Shrinks (d : DecodedCode) (pieces : List Piece) : Prop where
  length : d.body.code.length = pieces.length
  starts : ∀ (index : Nat) (p : Piece) (placed : Placed), pieces[index]? = some p →
    d.body.code[index]? = some placed → placed.offset ≤ p.start
  distances : ∀ (near far : Nat) (p q : Piece) (placed other : Placed), pieces[near]? = some p →
    pieces[far]? = some q → d.body.code[near]? = some placed → d.body.code[far]? = some other →
    ShrinksTo (q.start - p.start) (other.offset - placed.offset)
  jumps : ∀ (index : Nat) (p : Piece) (placed : Placed), pieces[index]? = some p →
    d.body.code[index]? = some placed →
    ∃ (target : Int → Handle) (now : Int → Int), placed.instruction = p.instruction.relabel target
      ∧ (p.instruction.relabel now).WithinReach
      ∧ (∀ displacement ∈ p.instruction.targets, ShrinksTo displacement (now displacement)
        ∧ ∃ (there : Nat) (q : Piece) (other : Placed), pieces[there]? = some q
          ∧ d.body.code[there]? = some other ∧ target displacement = .ofPosition there
          ∧ p.stop + displacement = (q.start : Int)
          ∧ (placed.offset + placed.instruction.width : Nat) + now displacement = (other.offset : Int))
      ∧ (pieces.length ≤ 4294967296 →
        encodePlaced d.body.offsets placed = (p.instruction.relabel now).encode placed.offset)

/-- **Decoded code shrinks** the pieces it follows. -/
theorem Follows.shrinks (follows : d.Follows pieces) (cut : GreedyCut tokens 0 bytes pieces none)
    (canonical : d.body.Canonical) : d.Shrinks pieces := by
  have offset {index : Nat} {placed : Placed} (inCode : d.body.code[index]? = some placed) :=
    offsetsAreCurrent_iff.mp follows.current index placed inCode
  refine ⟨follows.length, ?_, ?_, ?_⟩
  · intro index p placed here inCode
    have less := startOf_sub_le (follows.widths_le cut) (Nat.zero_le index)
    rw [startOf_zero, startOf_zero] at less
    rw [offset inCode, cut.start_eq here]
    omega
  · intro near far p q placed other here there inCode inCode'
    rw [offset inCode, offset inCode', cut.start_eq here, cut.start_eq there, Nat.zero_add, Nat.zero_add]
    exact follows.shrinksTo cut (List.getElem?_eq_some_iff.mp here).1.le far
  · intro index p placed here inCode
    obtain ⟨_, target, found, targets⟩ := follows.placed index p here
    have shrinks {displacement : Int} (hit : displacement ∈ p.instruction.targets) :=
      follows.recomputed_shrinks cut here hit
    have within := (cut.admitted p (List.mem_of_getElem? here)).within.relabel fun _ hit => (shrinks hit).between
    refine ⟨target, d.recomputed pieces index p, ?_, within, fun displacement hit => ⟨shrinks hit, ?_⟩,
      fun few => follows.encodePlaced_eq cut canonical few here inCode⟩
    · rw [Option.some.inj (inCode.symm.trans found)]
    · obtain ⟨there, q, inCut, lands, named, -⟩ := targets displacement hit
      obtain ⟨_, _, inCode', -⟩ := follows.placed there q inCut
      refine ⟨there, q, _, inCut, inCode', named, lands.symm, ?_⟩
      rw [recomputed_eq cut inCut lands, Body.stop_eq follows.current inCode, offset inCode', add_sub_cancel]

end DecodedCode

/-! ## (4) The outcome -/

end Hotpatch
