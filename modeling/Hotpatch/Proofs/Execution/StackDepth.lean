import Hotpatch.Proofs.Execution.Machine

/-! # Stack depths

How deep the evaluation stack is along the paths of control through a body. A path knows nothing of
values: at a branch it may go on either way.

* **`Instruction.depthAfter`**, **`Instruction.depthAlong`** — the depth after one instruction, and
  along a line of them.
* **`Instruction.Carries`** — a line that finds its operands and stays within a limit.
* **`Body.Flows`**, **`Body.Reaches`** — how control flows, and where paths from the first instruction
  lead.
* **`Body.StackSafe`** — no path lacks an operand or needs more stack than was declared.
* **`stackSafe_of_depths`** — a body is stack-safe if its instructions can be given depths that fit
  together.
* **`flows_behind_iff`** — code in front of a body does not change how control flows in it. -/

namespace Hotpatch

/-! ## (1) Lines -/

namespace Instruction

variable {L : Type} {limit depth start middle final position : Nat} {i : Instruction L}
  {code rest : List (Instruction L)}

/-- The depth of the stack **after** an instruction. -/
def depthAfter (depth : Nat) (i : Instruction L) : Nat :=
  depth - i.effect.pops + i.effect.pushes

/-- The depth **along** a line: that of the stack before the instruction at a position, if those in
front of it are executed one after the other. -/
def depthAlong (depth : Nat) (code : List (Instruction L)) (position : Nat) : Nat :=
  (code.take position).foldl depthAfter depth

/-- One position further on along a line. -/
theorem depthAlong_succ (here : code[position]? = some i) :
    depthAlong depth code (position + 1) = depthAfter (depthAlong depth code position) i := by
  rw [depthAlong, List.take_add_one, here, List.foldl_append, ← depthAlong]
  rfl

/-- The depth in the front of a line does not depend on what is behind. -/
theorem depthAlong_append_left (inside : position ≤ code.length) :
    depthAlong depth (code ++ rest) position = depthAlong depth code position := by
  rw [depthAlong, List.take_append_of_le_length inside, depthAlong]

/-- A line **carries** the stack from one depth to another within a limit: every instruction finds its
operands and leaves no more on the stack than the limit. -/
def Carries (limit : Nat) : List (Instruction L) → Nat → Nat → Prop
  | [], start, final => start = final
  | i :: rest, start, final =>
    i.effect.pops ≤ start ∧ depthAfter start i ≤ limit ∧ Carries limit rest (depthAfter start i) final

/-- Two lines, one after the other. -/
theorem Carries.append (first : Carries limit code start middle)
    (second : Carries limit rest middle final) : Carries limit (code ++ rest) start final := by
  induction code generalizing start with
  | nil =>
    obtain rfl : start = middle := first
    exact second
  | cons i code ih => exact ⟨first.1, first.2.1, ih first.2.2⟩

/-- The depth at the end of a line. -/
theorem Carries.depthAlong_length (carries : Carries limit code start final) :
    depthAlong start code code.length = final := by
  rw [depthAlong, List.take_length]
  induction code generalizing start with
  | nil => exact carries
  | cons i code ih => exact ih carries.2.2

/-- **At every position** of a line that carries there are the operands of the instruction, and room
for what it leaves. -/
theorem Carries.at_position (carries : Carries limit code start final)
    (here : code[position]? = some i) :
    i.effect.pops ≤ depthAlong start code position
      ∧ depthAlong start code (position + 1) ≤ limit := by
  induction code generalizing start position with
  | nil => cases here
  | cons first code ih =>
    cases position with
    | zero =>
      obtain rfl : first = i := Option.some.inj here
      exact ⟨carries.1, carries.2.1⟩
    | succ position => exact ih carries.2.2 here

end Instruction

/-! ## (2) Paths of control -/

/-- Where control **stands**: the instruction that is executed next, and the depth of the stack. -/
@[ext] structure Standing where
  handle : Handle
  depth : Nat
deriving Repr, DecidableEq

namespace Body

variable {b c : Body} {s s' : Standing}

/-- Control **flows** from one standing to another by the instruction it stands at: to the one laid out
behind it if that may come next, and to each of its targets. -/
inductive Flows (b : Body) (s : Standing) : Standing → Prop where
  | falls {i : Instruction Handle} {next : Handle} (here : b.instruction? s.handle = some i)
      (falls : i.fallsThrough = true) (behind : b.follower? s.handle = some next) :
      Flows b s ⟨next, i.depthAfter s.depth⟩
  | jumps {i : Instruction Handle} {target : Handle} (here : b.instruction? s.handle = some i)
      (hit : target ∈ i.targets) : Flows b s ⟨target, i.depthAfter s.depth⟩

/-- A standing is **reached** if a path of any length leads there from the first instruction and the
empty stack. -/
inductive Reaches (b : Body) : Standing → Prop where
  | start {first : Handle} (starts : b.first? = some first) : Reaches b ⟨first, 0⟩
  | flow {s s' : Standing} (reached : Reaches b s) (flows : b.Flows s s') : Reaches b s'

/-- **Stack-safe** bodies: wherever a path leads, the stack holds the operands of the instruction, and
has room for what it leaves. -/
structure StackSafe (b : Body) : Prop where
  operands : ∀ s, b.Reaches s → ∀ i, b.instruction? s.handle = some i → i.effect.pops ≤ s.depth
  room : ∀ s, b.Reaches s → ∀ i, b.instruction? s.handle = some i →
    i.depthAfter s.depth ≤ b.maxStack.toNat

/-- **Depths that fit together** make a body stack-safe: one for each instruction, zero for the first
one, and the same for what comes next as is left on the stack. -/
theorem stackSafe_of_depths (distinct : b.Distinct) (depthOf : Handle → Nat)
    (initial : ∀ first ∈ b.first?, depthOf first = 0)
    (fits : ∀ placed ∈ b.code, placed.instruction.effect.pops ≤ depthOf placed.handle
      ∧ placed.instruction.depthAfter (depthOf placed.handle) ≤ b.maxStack.toNat
      ∧ (placed.instruction.fallsThrough = true → ∀ next ∈ b.follower? placed.handle,
        depthOf next = placed.instruction.depthAfter (depthOf placed.handle))
      ∧ ∀ target ∈ placed.instruction.targets,
        depthOf target = placed.instruction.depthAfter (depthOf placed.handle)) :
    b.StackSafe := by
  have atHandle {handle : Handle} {i : Instruction Handle} (here : b.instruction? handle = some i) :
      ∃ placed ∈ b.code, placed.handle = handle ∧ placed.instruction = i := by
    obtain ⟨placed, found, rfl⟩ := Option.map_eq_some_iff.mp here
    obtain ⟨mem, rfl⟩ := (find?_eq_some_iff distinct).mp found
    exact ⟨placed, mem, rfl, rfl⟩
  -- Paths arrive at an instruction with the depth that it was given.
  have given {s : Standing} (reached : b.Reaches s) : s.depth = depthOf s.handle := by
    induction reached with
    | start starts => exact (initial _ starts).symm
    | flow _ flows same =>
      cases flows with
      | falls here falls behind =>
        obtain ⟨placed, mem, handle, rfl⟩ := atHandle here
        have next := (fits placed mem).2.2.1 falls _ (handle ▸ behind)
        rw [next, handle, same]
      | jumps here hit =>
        obtain ⟨placed, mem, handle, rfl⟩ := atHandle here
        have next := (fits placed mem).2.2.2 _ hit
        rw [next, handle, same]
  constructor
  all_goals
    intro s reached i here
    obtain ⟨placed, mem, handle, rfl⟩ := atHandle here
    rw [given reached, ← handle]
  · exact (fits placed mem).1
  · exact (fits placed mem).2.1

/-! ## (3) Code in front of a body -/

/-- Control in a well-formed body flows to its handles only. -/
theorem Flows.inside (wf : b.WellFormed) (flows : b.Flows s s') :
    s'.handle.index < b.code.length := by
  cases flows with
  | falls here falls behind =>
    obtain ⟨position, -, at_next⟩ := Option.bind_eq_some_iff.mp behind
    obtain ⟨placed, found, rfl⟩ := Option.map_eq_some_iff.mp at_next
    exact wf.handle_lt (List.mem_of_getElem? found)
  | jumps here hit =>
    obtain ⟨placed, found, rfl⟩ := Option.map_eq_some_iff.mp here
    exact wf.targets placed (List.mem_of_find?_eq_some found) _ hit

/-- Paths in a well-formed body lead to its handles only. -/
theorem Reaches.inside (wf : b.WellFormed) (reached : b.Reaches s) :
    s.handle.index < b.code.length := by
  cases reached with
  | start starts => exact wf.first_lt starts
  | flow reached flows => exact flows.inside wf

/-- **Control inside a body flows in the same way with code in front.** -/
theorem flows_behind_iff {front : List Placed} (wf : b.WellFormed) (distinct : c.Distinct)
    (code : c.code = front ++ b.code) (inside : s.handle.index < b.code.length) :
    c.Flows s s' ↔ b.Flows s s' := by
  have instruction := Machine.instruction?_behind wf distinct code inside
  have follower := Machine.follower?_behind wf distinct code inside
  constructor
  · intro flows
    cases flows with
    | falls here falls behind => exact .falls (instruction ▸ here) falls (follower ▸ behind)
    | jumps here hit => exact .jumps (instruction ▸ here) hit
  · intro flows
    cases flows with
    | falls here falls behind =>
      exact .falls (instruction.trans here) falls (follower.trans behind)
    | jumps here hit => exact .jumps (instruction.trans here) hit

end Body

end Hotpatch
