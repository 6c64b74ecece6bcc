import Hotpatch.Proofs.Execution.Machine
import Hotpatch.Proofs.Patch.Splicing

/-! # Methods without a patch

A method whose registry knows no patch runs as if nothing had been put in front of it.

* **`Machine.FindsNoPatch`** — what the machine has to do with the three kinds of instructions that
  ask for a patch; all others may mean anything.
* **`run_splice_of_findsNoPatch`** — after four steps in the preamble the method is at its old first
  instruction with the frame it was entered with, and from there runs as before. -/

namespace Hotpatch

variable {V W : Type}

/-- The **fresh** frame of a method that is entered: nothing is on the stack. -/
def Frame.fresh (arguments locals : List V) (world : W) : Frame V W :=
  ⟨[], arguments, locals, world⟩

namespace Machine

/-- A machine on which the registry **finds no patch** under the names of a type and a method. -/
structure FindsNoPatch (M : Machine V W) (hasPatch : MethodRef) (typeName methodName : String) :
    Prop where
  /-- Loading a string pushes it. -/
  loads : ∀ text frame,
    M.act (.ldstr text) frame = (.next, { frame with stack := M.text text :: frame.stack })
  /-- A branch on false pops a value and jumps exactly when it does not count as true. -/
  branches : ∀ reach target value rest frame, frame.stack = value :: rest →
    M.act (.branch reach .isFalse target) frame
      = (if M.truth value then .next else .jump 0, { frame with stack := rest })
  /-- Asked for the two names, the registry pops them, pushes a false value, and does nothing else. -/
  answers : ∀ rest frame, frame.stack = M.text methodName :: M.text typeName :: rest →
    ∃ answer, M.truth answer = false
      ∧ M.act (.invoke .call hasPatch) frame = (.next, { frame with stack := answer :: rest })

variable {M : Machine V W} {b patched : Body} {t : MethodTarget} {registry : PatchRegistry}

/-- **Asking in vain**: the instructions that ask for a patch pass control on, one after the other, up
to a false value on the stack. -/
theorem FindsNoPatch.line_ask
    (noPatch : M.FindsNoPatch registry.hasPatch t.typeName t.methodName) (frame : Frame V W) :
    ∃ answer, M.truth answer = false
      ∧ M.line (Preamble.keys t ++ [.invoke .call registry.hasPatch]) frame
        = some { frame with stack := answer :: frame.stack } := by
  obtain ⟨answer, isFalse, asks⟩ := noPatch.answers frame.stack
    { frame with stack := M.text t.methodName :: M.text t.typeName :: frame.stack } rfl
  have keys : M.line (Preamble.keys t) frame
      = some { frame with
          stack := M.text t.methodName :: M.text t.typeName :: frame.stack } := by
    rw [Preamble.keys, line_cons M (noPatch.loads _ _), line_cons M (noPatch.loads _ _), line]
  refine ⟨answer, isFalse, ?_⟩
  rw [line_append, keys, Option.bind_some, line_cons M asks, line]

section Patched

variable (distinct : patched.Distinct) {first : Handle} {p : Preamble}
  (built : Preamble.build t registry first = .ok p) {behind : List Placed} {count : Nat}
  (code : patched.code = Body.enlist count p.instructions ++ behind)
  (noPatch : M.FindsNoPatch registry.hasPatch t.typeName t.methodName)

include distinct built code noPatch

/-- **The first steps** of a patched body are in the preamble. -/
theorem FindsNoPatch.run_ask (frame : Frame V W) {steps : Nat} (early : steps < 4) :
    ∃ reached, M.run patched steps (start patched frame) = .running ⟨count + steps⟩ reached := by
  have asks := Preamble.instructions_of_build built
  obtain ⟨answer, -, line⟩ := noPatch.line_ask frame
  -- As long as the line goes, control is at the position of the number of steps.
  have isFront := List.take_prefix steps (Preamble.keys t ++ [.invoke .call registry.hasPatch])
  obtain ⟨reached, front⟩ := exists_line_of_prefix M isFront line
  have inCode :
      (Preamble.keys t ++ [Instruction.invoke .call registry.hasPatch]).take steps
      <+: (patched.code.drop 0).map (·.instruction) :=
    (isFront.trans (asks ▸ List.prefix_append _ _)).trans (Body.prefix_of_enlist_append code)
  have run := run_line distinct inCode front
  have bound : steps < p.instructions.length := by
    rw [asks]
    simp [Preamble.keys]
    omega
  rw [List.length_take_of_le (by simp [Preamble.keys]; omega), Nat.zero_add, ← start_eq_atPosition,
    atPosition, Body.handleAt?_of_enlist_append code bound] at run
  exact ⟨reached, run⟩

/-- **The fourth step** of a patched body is the branch around the dispatch: it drops the answer and
leads to the instruction to be resumed. -/
theorem FindsNoPatch.run_resume (frame : Frame V W) :
    M.run patched 4 (start patched frame) = .running first frame := by
  have asks := Preamble.instructions_of_build built
  obtain ⟨answer, isFalse, line⟩ := noPatch.line_ask frame
  have inCode : (Preamble.keys t ++ [.invoke .call registry.hasPatch])
      <+: (patched.code.drop 0).map (·.instruction) :=
    (asks ▸ List.prefix_append _ _ : _ <+: p.instructions).trans
      (Body.prefix_of_enlist_append code)
  have run := run_line distinct inCode line
  rw [← start_eq_atPosition] at run
  -- The fourth instruction is the branch, behind the two keys and the call.
  have branch : patched.code[3]? = some ⟨⟨count + 3⟩, 0, .branch .long .isFalse first⟩ := by
    rw [code, List.getElem?_append_left (by rw [Body.length_enlist, asks]; simp [Preamble.keys]),
      Body.getElem?_enlist, asks]
    rfl
  have act := noPatch.branches .long first answer frame.stack
    { frame with stack := answer :: frame.stack } rfl
  rw [isFalse] at act
  calc M.run patched (3 + 1) (start patched frame)
      = M.step patched (M.run patched 3 (start patched frame)) := run_add M 3 1 _
    _ = M.step patched (atPosition patched 3 { frame with stack := answer :: frame.stack }) :=
        congrArg _ run
    _ = .running first frame := step_atPosition_jump distinct branch act

end Patched

/-- **Transparency of a preamble without a patch.** Take a well-formed body with a first instruction,
the preamble of its method, and a machine on which the registry finds no patch for the method; what
the machine makes of all other instructions is up to it. The preamble can be spliced in. The patched
body then spends exactly four steps in the preamble and arrives at the old first instruction with the
frame it was entered with. From there it runs as the old body does from its first instruction: after
any number of steps both are in the same state, with the same instruction to be executed next, and
never again in the preamble. -/
theorem run_splice_of_findsNoPatch (wf : b.WellFormed) {first : Handle}
    (starts : b.first? = some first) {p : Preamble}
    (built : Preamble.build t registry first = .ok p)
    (noPatch : M.FindsNoPatch registry.hasPatch t.typeName t.methodName)
    (arguments locals : List V) (world : W) :
    ∃ patched spliced, b.splice p = (patched, .ok spliced)
      ∧ (∀ steps < 4, ∃ frame, M.run patched steps (start patched (.fresh arguments locals world))
          = .running ⟨b.code.length + steps⟩ frame)
      ∧ M.run patched 4 (start patched (.fresh arguments locals world))
          = .running first (.fresh arguments locals world)
      ∧ ∀ steps,
        M.run patched (4 + steps) (start patched (.fresh arguments locals world))
            = M.run b steps (start b (.fresh arguments locals world))
          ∧ (M.run b steps (start b (.fresh arguments locals world))).Inside b := by
  refine ⟨_, _, wf.splice_of_build starts built, ?_⟩
  -- From here on only the code of the spliced body matters.
  generalize shape : ({ b with
    maxStack := max b.maxStack p.maxStack
    code := Body.enlist b.code.length p.instructions ++ b.code } : Body) = patched
  have code : patched.code = Body.enlist b.code.length p.instructions ++ b.code := by
    rw [← shape]
  have distinct : patched.Distinct := wf.distinct_enlist_append code
  have old : start b (.fresh arguments locals world)
      = .running first (.fresh arguments locals world) := by
    rw [start, starts, State.arrive]
  -- Control starts inside the old code, which no step leaves again.
  have inside : (State.running first (Frame.fresh arguments locals world)).Inside b := by
    obtain ⟨placed, here, rfl⟩ := Option.map_eq_some_iff.mp starts
    exact wf.handle_lt (List.mem_of_mem_head? here)
  have resumes := noPatch.run_resume distinct built code (.fresh arguments locals world)
  refine ⟨fun steps early => noPatch.run_ask distinct built code _ early, resumes, fun steps => ?_⟩
  rw [run_add, resumes, old]
  exact ⟨run_behind wf distinct code steps inside, inside_run wf steps inside⟩

/-- A machine on which **every call is in vain**: it takes two values and pushes nothing but a false
one. Values are strings or nothing, and the world counts the other instructions. -/
def vain : Machine (Option String) Nat where
  text := some
  truth := Option.isSome
  act
    | .ldstr text, frame => (.next, { frame with stack := some text :: frame.stack })
    | .invoke .call _, ⟨_ :: _ :: rest, arguments, locals, world⟩ =>
      (.next, ⟨none :: rest, arguments, locals, world⟩)
    | .branch _ .isFalse _, ⟨value :: rest, arguments, locals, world⟩ =>
      (if value.isSome then .next else .jump 0, ⟨rest, arguments, locals, world⟩)
    | _, frame => (.next, { frame with stack := none :: frame.stack, world := frame.world + 1 })

/-- On this machine no registry finds a patch. -/
theorem vain_findsNoPatch (hasPatch : MethodRef) (typeName methodName : String) :
    vain.FindsNoPatch hasPatch typeName methodName where
  loads _ _ := rfl
  -- The frames are taken apart so that the match in the machine can see their stacks.
  branches _ _ value rest frame shape := by
    obtain ⟨stack, arguments, locals, world⟩ := frame
    obtain rfl : stack = value :: rest := shape
    rfl
  answers rest frame shape := by
    obtain ⟨stack, arguments, locals, world⟩ := frame
    obtain rfl : stack = vain.text methodName :: vain.text typeName :: rest := shape
    exact ⟨none, rfl, rfl⟩

/-- A body that **loops** back to its first instruction, which was not the first one added. -/
def loop : Body :=
  { Body.empty with
    code := [⟨⟨1⟩, 0, .slot .ldarg 0⟩, ⟨⟨0⟩, 1, .branch .short .isFalse ⟨1⟩⟩,
      ⟨⟨2⟩, 3, .plain .ret⟩] }

/-- The loop goes on behind its preamble as before, round after round. -/
theorem run_splice_of_findsNoPatch_loop :
    loop.WellFormed ∧ ∃ p,
      Preamble.build ⟨"Foo", "Spin", [.bool], true, .void⟩ (.standard "Hotfix" "Registry") ⟨1⟩ = .ok p
      ∧ ∃ patched spliced, loop.splice p = (patched, .ok spliced)
        ∧ vain.run patched 4 (start patched (.fresh [none] [] 0)) = .running ⟨1⟩ (.fresh [none] [] 0)
        ∧ ∀ steps, vain.run patched (4 + steps) (start patched (.fresh [none] [] 0))
          = vain.run loop steps (start loop (.fresh [none] [] 0)) := by
  have wf : loop.WellFormed := ⟨by decide, by decide⟩
  let spin : MethodTarget := ⟨"Foo", "Spin", [.bool], true, .void⟩
  have built : Preamble.build spin (.standard "Hotfix" "Registry") ⟨1⟩ = .ok _ :=
    Preamble.build_eq_ok_iff.mpr ⟨by decide, rfl⟩
  obtain ⟨patched, spliced, done, -, resumes, same⟩ :=
    run_splice_of_findsNoPatch wf rfl built (vain_findsNoPatch _ _ _) [none] [] 0
  exact ⟨wf, _, built, patched, spliced, done, resumes, fun steps => (same steps).1⟩

end Machine

end Hotpatch
