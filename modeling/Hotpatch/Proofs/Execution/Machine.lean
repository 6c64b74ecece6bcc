import Hotpatch.Proofs.Code.Arena
import Mathlib.Logic.Function.Iterate

/-! # Running bodies

What it means to run a body, for any meaning of its instructions. A machine says what an instruction
does to the frame of the method and how control goes on; the body says where that leads.

* **`Machine`** — a meaning of the instructions, over any values and any outside world.
* **`Machine.step`**, **`Machine.run`** — one step of a body, and a number of them.
* **`Machine.line`** — instructions that run one after the other, without a body around them;
  `run_line` finds such a run in every body that holds them side by side.
* **`run_behind`** — code put in front of a body does not show in the runs of the body. -/

namespace Hotpatch

/-! ## (1) Frames and machines -/

/-- The **frame** of a running method, with the world outside of it. The top of the stack is the
head of the list. -/
structure Frame (V W : Type) where
  stack : List V
  arguments : List V
  locals : List V
  world : W

/-- How a method is **left**. -/
inductive Exit where
  | returned | threw
deriving Repr, DecidableEq

/-- How **control** goes on after an instruction. -/
inductive Control where
  /-- To the next position of the layout. -/
  | next
  /-- To a branch target, by its number among the targets of the instruction. -/
  | jump (index : Nat)
  | leave (exit : Exit)
deriving Repr, DecidableEq

/-- A **machine**: a meaning of the instructions, over values `V` and an outside world `W`. -/
structure Machine (V W : Type) where
  /-- The value of a string. -/
  text : String → V
  /-- Whether a value counts as true. -/
  truth : V → Bool
  /-- What an instruction does to the frame, and how control goes on. -/
  act : Instruction Handle → Frame V W → Control × Frame V W

/-- The **state** of a run. -/
inductive State (V W : Type) where
  /-- The instruction of the handle is the next one to be executed. -/
  | running (handle : Handle) (frame : Frame V W)
  | left (exit : Exit) (frame : Frame V W)
  /-- Control went where the body has no instruction. -/
  | lost (frame : Frame V W)

variable {V W : Type}

/-- The state in which control **arrives** at an instruction, if there is one. -/
def State.arrive (frame : Frame V W) : Option Handle → State V W
  | some handle => .running handle frame
  | none => .lost frame

/-- A state is **inside** a body if it is over, or about to execute one of the body's instructions. -/
def State.Inside (b : Body) : State V W → Prop
  | .running handle _ => handle.index < b.code.length
  | _ => True

/-- The **follower** of an instruction: the one at the next position of the layout. -/
def Body.follower? (b : Body) (handle : Handle) : Option Handle :=
  (b.position? handle).bind fun position => b.handleAt? (position + 1)

namespace Machine

/-! ## (2) Steps and runs -/

/-- One **step** of a body. A run that is over stays as it is. -/
def step (M : Machine V W) (b : Body) : State V W → State V W
  | .running handle frame =>
    match b.instruction? handle with
    | none => .lost frame
    | some instruction =>
      match M.act instruction frame with
      | (.next, after) => .arrive after (b.follower? handle)
      | (.jump index, after) => .arrive after instruction.targets[index]?
      | (.leave exit, after) => .left exit after
  | finished => finished

/-- **Run** a body for a number of steps. -/
def run (M : Machine V W) (b : Body) (steps : Nat) : State V W → State V W :=
  (M.step b)^[steps]

/-- The state in which a body **starts**: at its first instruction. -/
def start (b : Body) (frame : Frame V W) : State V W :=
  .arrive frame b.first?

/-- The state in which control is **at a position** of the layout. -/
def atPosition (b : Body) (position : Nat) (frame : Frame V W) : State V W :=
  .arrive frame (b.handleAt? position)

variable (M : Machine V W) {b c : Body}

/-- The first of some steps. -/
@[simp, grind =] theorem run_succ (steps : Nat) (state : State V W) :
    M.run b (steps + 1) state = M.run b steps (M.step b state) := by
  rw [run, Function.iterate_succ_apply, run]

/-- A run in two parts. -/
theorem run_add (first second : Nat) (state : State V W) :
    M.run b (first + second) state = M.run b second (M.run b first state) := by
  rw [run, run, run, Nat.add_comm, Function.iterate_add_apply]

/-- A body starts at position zero. -/
theorem start_eq_atPosition (frame : Frame V W) : start b frame = atPosition b 0 frame := by
  rw [start, atPosition, Body.first?, Body.handleAt?, List.head?_eq_getElem?]

/-! ## (3) Lines -/

/-- A **line**: the frame after instructions of which each passes control to the next one, and
nothing if one of them does not. -/
def line (M : Machine V W) : List (Instruction Handle) → Frame V W → Option (Frame V W)
  | [], frame => some frame
  | instruction :: rest, frame =>
    match M.act instruction frame with
    | (.next, after) => M.line rest after
    | _ => none

/-- A line that starts with an instruction that passes control on. -/
theorem line_cons {instruction : Instruction Handle} {rest : List (Instruction Handle)}
    {frame after : Frame V W} (acts : M.act instruction frame = (.next, after)) :
    M.line (instruction :: rest) frame = M.line rest after := by
  rw [line, acts]

/-- A line in two parts. -/
@[simp] theorem line_append (first second : List (Instruction Handle)) (frame : Frame V W) :
    M.line (first ++ second) frame = (M.line first frame).bind (M.line second) := by
  induction first generalizing frame with
  | nil => rfl
  | cons instruction rest ih =>
    rw [List.cons_append, line, line]
    split
    · exact ih _
    · rfl

/-- The front of a line is a line. -/
theorem exists_line_of_prefix {front whole : List (Instruction Handle)} (isFront : front <+: whole)
    {frame after : Frame V W} (runs : M.line whole frame = some after) :
    ∃ middle, M.line front frame = some middle := by
  obtain ⟨rest, rfl⟩ := isFront
  rw [line_append] at runs
  obtain ⟨middle, reached, -⟩ := Option.bind_eq_some_iff.mp runs
  exact ⟨middle, reached⟩

variable {M}

/-- **One step at a position** where the instruction passes control on leads to the next position. -/
theorem step_atPosition (distinct : b.Distinct) {position : Nat} {placed : Placed}
    (here : b.code[position]? = some placed) {frame after : Frame V W}
    (acts : M.act placed.instruction frame = (.next, after)) :
    M.step b (atPosition b position frame) = atPosition b (position + 1) after := by
  have handle : b.handleAt? position = some placed.handle := by
    rw [Body.handleAt?, here, Option.map_some]
  rw [atPosition, handle, State.arrive, step, Body.instruction?_of_getElem? distinct here]
  simp only [acts]
  rw [Body.follower?, Body.position?_of_getElem? distinct here, Option.bind_some, atPosition]

/-- One step at a position where the instruction branches leads to the target. -/
theorem step_atPosition_jump (distinct : b.Distinct) {position index : Nat} {placed : Placed}
    (here : b.code[position]? = some placed) {frame after : Frame V W}
    (acts : M.act placed.instruction frame = (.jump index, after)) :
    M.step b (atPosition b position frame) = .arrive after placed.instruction.targets[index]? := by
  have handle : b.handleAt? position = some placed.handle := by
    rw [Body.handleAt?, here, Option.map_some]
  rw [atPosition, handle, State.arrive, step, Body.instruction?_of_getElem? distinct here]
  simp only [acts]

/-- One step at a position where the instruction leaves the method. -/
theorem step_atPosition_leave (distinct : b.Distinct) {position : Nat} {placed : Placed}
    (here : b.code[position]? = some placed) {frame after : Frame V W} {exit : Exit}
    (acts : M.act placed.instruction frame = (.leave exit, after)) :
    M.step b (atPosition b position frame) = .left exit after := by
  have handle : b.handleAt? position = some placed.handle := by
    rw [Body.handleAt?, here, Option.map_some]
  rw [atPosition, handle, State.arrive, step, Body.instruction?_of_getElem? distinct here]
  simp only [acts]

/-- **A line runs in every body that holds it**: instructions laid out side by side that pass control
on lead from the position of the first to the position behind the last. -/
theorem run_line (distinct : b.Distinct) {instructions : List (Instruction Handle)}
    {position : Nat} {frame after : Frame V W}
    (here : instructions <+: (b.code.drop position).map (·.instruction))
    (runs : M.line instructions frame = some after) :
    M.run b instructions.length (atPosition b position frame)
      = atPosition b (position + instructions.length) after := by
  induction instructions generalizing position frame with
  | nil =>
    obtain rfl : frame = after := Option.some.inj runs
    rfl
  | cons instruction rest ih =>
    -- The first instruction is the one at the position, the others are those behind it.
    obtain ⟨placed, others, shape⟩ : ∃ placed others, b.code.drop position = placed :: others := by
      cases shape : b.code.drop position with
      | nil => simp [shape] at here
      | cons placed others => exact ⟨placed, others, rfl⟩
    -- Control at the position executes this instruction and goes on behind it.
    have found : b.code[position]? = some placed := by
      rw [← List.head?_drop, shape, List.head?_cons]
    have behind : b.code.drop (position + 1) = others := by
      rw [← List.drop_drop, shape, List.drop_one, List.tail_cons]
    rw [shape, List.map_cons, List.cons_prefix_cons] at here
    obtain ⟨rfl, tail⟩ := here
    rw [line] at runs
    split at runs
    case h_2 => cases runs
    case h_1 middle acts =>
      rw [List.length_cons, run_succ, step_atPosition distinct found acts,
        ih (by rw [behind]; exact tail) runs]
      congr 1
      omega

/-- A run that has left the method is over. -/
@[simp] theorem run_left (steps : Nat) (exit : Exit) (frame : Frame V W) :
    M.run b steps (.left exit frame) = .left exit frame := by
  induction steps with
  | zero => rfl
  | succ steps ih =>
    rw [run_succ]
    exact ih

/-- **A body that starts with a line and an instruction that leaves** is left by that instruction,
whatever is laid out behind it. -/
theorem run_line_leave (distinct : b.Distinct) {front rest : List (Instruction Handle)}
    {last : Instruction Handle} {frame after final : Frame V W} {exit : Exit}
    (here : front ++ last :: rest <+: b.code.map (·.instruction))
    (runs : M.line front frame = some after) (acts : M.act last after = (.leave exit, final))
    (steps : Nat) :
    M.run b (front.length + 1 + steps) (start b frame) = .left exit final := by
  have line : M.run b front.length (start b frame) = atPosition b front.length after := by
    have front_first : front <+: (b.code.drop 0).map (·.instruction) :=
      (List.prefix_append front (last :: rest)).trans here
    have run := run_line distinct front_first runs
    rwa [Nat.zero_add, ← start_eq_atPosition] at run
  have behind : b.code[front.length]?.map (·.instruction) = some last := by
    have := List.prefix_iff_getElem?.mp here front.length (by simp)
    simpa using this
  -- One more step leaves the method, and the steps after it change nothing.
  obtain ⟨placed, found, rfl⟩ := Option.map_eq_some_iff.mp behind
  rw [Nat.add_assoc, run_add, line, Nat.add_comm 1, run_succ,
    step_atPosition_leave distinct found acts, run_left]

/-! ## (4) Code in front of a body -/

variable {front : List Placed}

/-- Code in front does not change what stands under the handles of a body. -/
theorem instruction?_behind (wf : b.WellFormed) (distinct : c.Distinct)
    (code : c.code = front ++ b.code) {handle : Handle} (inside : handle.index < b.code.length) :
    c.instruction? handle = b.instruction? handle := by
  obtain ⟨position, placed, here, rfl⟩ := wf.exists_position inside
  have shifted : c.code[front.length + position]? = some placed := by
    rw [code, List.getElem?_append_right (Nat.le_add_right _ _), Nat.add_sub_cancel_left, here]
  rw [Body.instruction?_of_getElem? distinct shifted,
    Body.instruction?_of_getElem? wf.distinct here]

/-- Code in front does not change what follows the instructions of a body. -/
theorem follower?_behind (wf : b.WellFormed) (distinct : c.Distinct)
    (code : c.code = front ++ b.code) {handle : Handle} (inside : handle.index < b.code.length) :
    c.follower? handle = b.follower? handle := by
  obtain ⟨position, placed, here, rfl⟩ := wf.exists_position inside
  have shifted : c.code[front.length + position]? = some placed := by
    rw [code, List.getElem?_append_right (Nat.le_add_right _ _), Nat.add_sub_cancel_left, here]
  rw [Body.follower?, Body.follower?, Body.position?_of_getElem? distinct shifted,
    Body.position?_of_getElem? wf.distinct here, Option.bind_some, Option.bind_some,
    Body.handleAt?, Body.handleAt?, code, List.getElem?_append_right (by omega)]
  congr 2
  omega

/-- A step from inside a body ends inside it: branches lead to its handles, and so does falling
through. -/
theorem inside_step (wf : b.WellFormed) {state : State V W} (inside : state.Inside b) :
    (M.step b state).Inside b := by
  cases state with
  | left exit frame => exact inside
  | lost frame => exact inside
  | running handle frame =>
    obtain ⟨position, placed, here, rfl⟩ := wf.exists_position inside
    rw [step, Body.instruction?_of_getElem? wf.distinct here]
    simp only
    rcases M.act placed.instruction frame with ⟨_ | index | exit, after⟩
    · -- falling through
      rw [Body.follower?, Body.position?_of_getElem? wf.distinct here, Option.bind_some,
        Body.handleAt?]
      cases behind : b.code[position + 1]? with
      | none => trivial
      | some next => exact wf.handle_lt (List.mem_of_getElem? behind)
    · -- branching
      simp only
      cases target : placed.instruction.targets[index]? with
      | none => trivial
      | some goal =>
        exact wf.targets placed (List.mem_of_getElem? here) goal (List.mem_of_getElem? target)
    · trivial

/-- A step from inside a body is the same with code in front. -/
theorem step_behind (wf : b.WellFormed) (distinct : c.Distinct) (code : c.code = front ++ b.code)
    {state : State V W} (inside : state.Inside b) : M.step c state = M.step b state := by
  cases state with
  | left exit frame => rfl
  | lost frame => rfl
  | running handle frame =>
    rw [step, step, instruction?_behind wf distinct code inside,
      follower?_behind wf distinct code inside]

/-- **Runs from inside a body are the same with code in front.** -/
theorem run_behind (wf : b.WellFormed) (distinct : c.Distinct) (code : c.code = front ++ b.code)
    (steps : Nat) {state : State V W} (inside : state.Inside b) :
    M.run c steps state = M.run b steps state := by
  induction steps generalizing state with
  | zero => rfl
  | succ steps ih =>
    rw [run_succ, run_succ, step_behind wf distinct code inside, ih (inside_step wf inside)]

/-- Runs from inside a body stay inside it. -/
theorem inside_run (wf : b.WellFormed) (steps : Nat) {state : State V W} (inside : state.Inside b) :
    (M.run b steps state).Inside b := by
  induction steps generalizing state with
  | zero => exact inside
  | succ steps ih =>
    rw [run_succ]
    exact ih (inside_step wf inside)

end Machine

end Hotpatch
