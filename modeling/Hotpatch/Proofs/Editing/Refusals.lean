import Hotpatch.Proofs.Code.TokenBytes
import Hotpatch.Proofs.Editing.Reachable
import Hotpatch.Proofs.Image.Faults

/-! # Why code is not written

Of the bodies that can be made, the code is written unless the offsets are not current, there is too much of
it, or a short branch does not reach. No other branch is in the way, and tokens have no part in it.

* **`Body.RunningSums`** — the offsets are the sums of the widths in front.
* **`Body.shortFault?`** — the fault of a short branch; `WellFormed.outOfReach?_eq` says that other
  instructions have none.
* **`Module.emit`** — an image that is written to memory; `Module.emit_run` says when it is.
* **`refusals_of_reachable`** — the refusals of a body, and of a module. -/

namespace Hotpatch

/-! ## (1) Bodies -/

namespace Body

variable {b : Body} {placed : Placed}

/-- The offsets are **running sums**: each instruction starts where those in front of it add up to. -/
def RunningSums (b : Body) : Prop :=
  ∀ (position : Nat) (placed : Placed), b.code[position]? = some placed →
    placed.offset = startOf (widths b.code) position

/-- The **fault of a short branch**: it does not reach its target from where it ends. -/
def shortFault? (b : Body) (placed : Placed) : Option Fault :=
  match placed.instruction with
  | .branch .short _ target =>
    let displacement : Int := b.offsetOf target - (placed.offset + placed.instruction.width : Nat)
    if -128 ≤ displacement ∧ displacement ≤ 127 then none
    else some (.branchOutOfRange placed.offset displacement)
  | _ => none

/-- **Only short branches are out of reach** in code that is laid out and not too large. -/
theorem WellFormed.outOfReach?_eq (wf : b.WellFormed) (current : b.offsetsAreCurrent = true)
    (size : b.codeSize ≤ maxCodeSize) (mem : placed ∈ b.code) :
    (b.relative placed).outOfReach? placed.offset = b.shortFault? placed := by
  have long := fun target hit => wf.reaches_long current size mem (wf.targets placed mem target hit)
  unfold shortFault?
  cases shape : placed.instruction with
  | branch reach condition target =>
    have relative : b.relative placed = .branch reach condition
        (b.offsetOf target - (placed.offset + placed.instruction.width : Nat)) := by
      rw [Body.relative, shape]
      rfl
    rw [relative, Instruction.outOfReach?]
    cases reach with
    | short =>
      rw [shape]
      rfl
    | long =>
      rw [shape] at long
      rw [shape, if_pos (long target List.mem_cons_self)]
  | switch targets =>
    have within : (b.relative placed).WithinReach := by
      rw [Body.relative, shape, Instruction.relabel_switch]
      intro displacement hit
      obtain ⟨target, isTarget, rfl⟩ := List.mem_map.mp hit
      rw [shape] at long
      exact long target isTarget
    rw [Instruction.outOfReach?_eq_none within]
  | _ =>
    rw [Body.relative, shape]
    rfl

/-- Without running sums no body is encoded. -/
theorem encode_of_not_runningSums (stale : ¬ b.RunningSums) (t : TokenTable) :
    b.encode t = .error .staleOffsets := by
  have current : b.offsetsAreCurrent = false :=
    eq_false_of_ne_true fun current => stale (offsetsAreCurrent_iff.mp current)
  unfold encode
  rw [current]
  rfl

/-- **When a body is encoded** whose offsets are running sums. -/
theorem WellFormed.decides_of_runningSums (wf : b.WellFormed) (sums : b.RunningSums) :
    b.encode.Decides (if maxCodeSize < b.codeSize then some (.codeTooLarge b.codeSize)
      else b.code.findSome? b.shortFault?) := by
  have current : b.offsetsAreCurrent = true := offsetsAreCurrent_iff.mpr sums
  have decides := wf.decides_encode
  rw [fault?, current, if_neg (by decide)] at decides
  by_cases large : maxCodeSize < b.codeSize
  · rwa [if_pos large] at decides ⊢
  · rw [if_neg large] at decides ⊢
    rwa [findSome?_congr fun placed mem =>
      wf.outOfReach?_eq current (Nat.le_of_not_lt large) mem] at decides

/-- A body has no fault exactly if it is encoded with every table. -/
theorem WellFormed.fault?_eq_none_iff (wf : b.WellFormed) :
    b.fault? = none ↔ ∀ t, ∃ r, b.encode t = .ok r := by
  have decides := wf.decides_encode
  cases fault : b.fault? with
  | none =>
    rw [fault] at decides
    refine iff_of_true rfl fun t => ?_
    obtain ⟨bytes, t', done⟩ := decides t
    exact ⟨_, done⟩
  | some f =>
    rw [fault] at decides
    refine iff_of_false nofun fun all => ?_
    obtain ⟨r, done⟩ := all .empty
    cases done.symm.trans (decides .empty)

end Body

/-! ## (2) Modules -/

namespace Module

variable {m : Module}

/-- **Emit** an image to memory. All bodies are encoded first; after that one part goes behind the other. -/
def emit (m : Module) : ExceptT Fault (StateM (List UInt8)) Unit := do
  let (types, tokens) ← ExceptT.mk (pure (m.writeTypes.run .empty))
  [imageMagic, Binary.write imageVersion, Binary.write m.name, Binary.write m.references,
    Binary.write m.markers, Binary.write tokens, types].forM fun part => modify (· ++ part)

/-- **What is emitted** is the image, behind what was written already, and nothing if it cannot be made. -/
theorem emit_run (m : Module) (written : List UInt8) :
    m.emit.run.run written = match m.write with
      | .ok bytes => (.ok (), written ++ bytes)
      | .error fault => (.error fault, written) := by
  unfold emit write
  cases m.writeTypes.run .empty with
  | error fault => rfl
  | ok both =>
    obtain ⟨types, tokens⟩ := both
    have parts : written ++ (imageMagic ++ Binary.write imageVersion ++ Binary.write m.name
          ++ Binary.write m.references ++ Binary.write m.markers ++ Binary.write tokens ++ types)
        = ((((((written ++ imageMagic) ++ Binary.write imageVersion) ++ Binary.write m.name)
          ++ Binary.write m.references) ++ Binary.write m.markers) ++ Binary.write tokens) ++ types := by
      simp only [List.append_assoc]
    show _ = (Except.ok (), _ ++ (imageMagic ++ _ ++ _ ++ _ ++ _ ++ _ ++ _))
    rw [parts]
    rfl

/-- **A module is written, or refused for its first body that is.** -/
theorem WellFormed.write_cases (wf : m.WellFormed) :
    (∃ bytes, m.write = .ok bytes ∧ ∀ b ∈ m.bodies, ∀ t, ∃ r, b.encode t = .ok r)
      ∨ ∃ front b behind fault, m.bodies = front ++ b :: behind
        ∧ (∀ c ∈ front, ∀ t, ∃ r, c.encode t = .ok r)
        ∧ (∀ t, b.encode t = .error fault) ∧ m.write = .error fault := by
  cases has : m.fault? with
  | none =>
    obtain ⟨bytes, written⟩ := (exists_write_iff wf).mpr has
    refine .inl ⟨bytes, written, fun b mem => ?_⟩
    exact (wf b mem).fault?_eq_none_iff.mp (List.findSome?_eq_none_iff.mp has b mem)
  | some fault =>
    obtain ⟨front, b, behind, bodies, fails, before⟩ := List.findSome?_eq_some_iff.mp has
    have mem : b ∈ m.bodies := bodies ▸ List.mem_append_right front List.mem_cons_self
    have decides := (wf b mem).decides_encode
    rw [fails] at decides
    refine .inr ⟨front, b, behind, fault, bodies, fun c inFront => ?_, decides, write_eq_error wf has⟩
    exact (wf c (bodies ▸ List.mem_append_left _ inFront)).fault?_eq_none_iff.mp (before c inFront)

end Module

/-- **Refusals.** With whatever table, a body that can be made is not encoded if its offsets are not running
sums; else if its code is too large; else if a short branch does not reach, and the fault is that of the first
one in the layout. If nothing is in the way it is encoded, and the table changes neither the length of the
code nor any byte outside of tokens. A module of such bodies is written to memory unless one of them is not
encoded; then the fault is that of the first one in the order of declaration, and nothing is written. -/
theorem refusals_of_reachable {b : Body} (reachable : b.Reachable) {m : Module}
    (made : ∀ c ∈ m.bodies, c.Reachable) (written : List UInt8) :
    ((¬ b.RunningSums → ∀ t, b.encode t = .error .staleOffsets)
      ∧ (b.RunningSums → Body.maxCodeSize < b.codeSize →
        ∀ t, b.encode t = .error (.codeTooLarge b.codeSize))
      ∧ (b.RunningSums → b.codeSize ≤ Body.maxCodeSize →
        ∀ fault, b.code.findSome? b.shortFault? = some fault → ∀ t, b.encode t = .error fault)
      ∧ (b.RunningSums → b.codeSize ≤ Body.maxCodeSize →
        b.code.findSome? b.shortFault? = none → ∀ t, ∃ bytes u, b.encode t = .ok (bytes, u)))
    ∧ (∀ t t' bytes bytes' u u', b.encode t = .ok (bytes, u) → b.encode t' = .ok (bytes', u') →
      bytes.length = bytes'.length ∧ ∀ offset, ¬ b.InToken offset → bytes[offset]? = bytes'[offset]?)
    ∧ ((∃ bytes, m.write = .ok bytes ∧ m.emit.run.run written = (.ok (), written ++ bytes)
        ∧ ∀ c ∈ m.bodies, ∀ t, ∃ r, c.encode t = .ok r)
      ∨ ∃ front c behind fault, m.bodies = front ++ c :: behind
        ∧ (∀ d ∈ front, ∀ t, ∃ r, d.encode t = .ok r) ∧ (∀ t, c.encode t = .error fault)
        ∧ m.write = .error fault ∧ m.emit.run.run written = (.error fault, written)) := by
  have wf := reachable.wellFormed
  refine ⟨⟨fun stale => Body.encode_of_not_runningSums stale, ?_, ?_, ?_⟩, ?_, ?_⟩
  · intro sums large
    have decides := wf.decides_of_runningSums sums
    rwa [if_pos large] at decides
  · intro sums small fault first
    have decides := wf.decides_of_runningSums sums
    rwa [if_neg (Nat.not_lt.mpr small), first] at decides
  · intro sums small none
    have decides := wf.decides_of_runningSums sums
    rwa [if_neg (Nat.not_lt.mpr small), none] at decides
  · intro t t' bytes bytes' u u' done done'
    exact wf.encode_agree done done'
  · have emits := m.emit_run written
    rcases Module.WellFormed.write_cases fun c mem => (made c mem).wellFormed with
      ⟨bytes, wrote, all⟩ | ⟨front, c, behind, fault, bodies, before, fails, refused⟩
    · rw [wrote] at emits
      exact .inl ⟨bytes, wrote, emits, all⟩
    · rw [refused] at emits
      exact .inr ⟨front, c, behind, fault, bodies, before, fails, refused, emits⟩

/-- A branch over fifteen long constants, which take 135 bytes. -/
def overreach : List (Instruction Nat) :=
  .branch .short .isTrue 16 :: List.replicate 15 (.ldcI8 0) ++ [.plain .ret]

/-- A module with two methods. -/
def couple (first second : Body) : Module :=
  let method (name : String) (body : Body) : MethodDef :=
    { name, attributes := ⟨16⟩, parameters := [], returnType := .void, markers := [], body? := some body }
  { name := "pair", references := [], markers := []
    types := [⟨"", "T", ⟨1⟩, [], [method "first" first, method "second" second]⟩], document? := none }

/-- The first method can be encoded, but the branch of the second does not reach: nothing is written. -/
theorem refusals_of_reachable_overreach :
    ∃ near far, Body.ofInstructions [.plain .ret] = .ok near ∧ near.Reachable
      ∧ Body.ofInstructions overreach = .ok far ∧ far.Reachable
      ∧ (∀ c ∈ (couple near far).bodies, c.Reachable)
      ∧ (∀ t, far.encode t = .error (.branchOutOfRange 0 135))
      ∧ (couple near far).emit.run.run [7] = (.error (.branchOutOfRange 0 135), [7]) := by
  obtain ⟨near, makesNear, encoded⟩ : ∃ near, Body.ofInstructions [.plain .ret] = .ok near
      ∧ ∃ r, near.encode .empty = .ok r := ⟨_, rfl, _, rfl⟩
  obtain ⟨far, makesFar, current, small, short⟩ : ∃ far, Body.ofInstructions overreach = .ok far
      ∧ far.offsetsAreCurrent = true ∧ far.codeSize ≤ Body.maxCodeSize
      ∧ far.code.findSome? far.shortFault? = some (.branchOutOfRange 0 135) :=
    ⟨_, rfl, rfl, by decide, rfl⟩
  have made : ∀ c ∈ (couple near far).bodies, c.Reachable := by
    intro c mem
    rcases List.mem_pair.mp mem with rfl | rfl
    · exact .ofInstructions makesNear
    · exact .ofInstructions makesFar
  obtain ⟨⟨-, -, refused, -⟩, -, outcome⟩ :=
    refusals_of_reachable (.ofInstructions makesFar) made [7]
  have fails := refused (Body.offsetsAreCurrent_iff.mp current) small _ short
  refine ⟨near, far, makesNear, .ofInstructions makesNear, makesFar, .ofInstructions makesFar, made,
    fails, ?_⟩
  rcases outcome with ⟨bytes, -, -, all⟩ | ⟨front, c, behind, fault, bodies, -, stops, -, emits⟩
  · obtain ⟨r, done⟩ := all far (List.mem_pair.mpr (.inr rfl)) .empty
    cases done.symm.trans (fails .empty)
  · have mem : c ∈ (couple near far).bodies := bodies ▸ List.mem_append_right front List.mem_cons_self
    rcases List.mem_pair.mp mem with rfl | rfl
    · obtain ⟨r, done⟩ := encoded
      cases done.symm.trans (stops .empty)
    · cases (stops .empty).symm.trans (fails .empty)
      exact emits

end Hotpatch
