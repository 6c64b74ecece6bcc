import Hotpatch.Proofs.Patch.Splicing

/-! # Splicing step by step

A splice puts the instructions of a preamble in one at a time: the first in front of the body, and each
other behind the one before it, which is looked up in the layout every time.

* **`Body.insertChain`**, **`Body.insertInFront`** — the insertions of a splice;
  `splice_eq_insertInFront` says that these give the spliced body.
* **`WellFormed.splice_spec`** — what a splice of any preamble leaves and gives. -/

namespace Hotpatch.Body

variable {b c : Body} {i : Instruction Handle} {count : Nat} {instructions : List (Instruction Handle)}

/-! ## (1) Insertions -/

/-- **Insert a chain** of instructions, each behind the one before it. The first that cannot be inserted
ends it, and those before it stay. -/
def insertChain (b : Body) (anchor : Handle) : List (Instruction Handle) → Body × Except Fault Unit
  | [] => (b, .ok ())
  | instruction :: rest =>
    match b.insertAfter anchor instruction with
    | .error fault => (b, .error fault)
    | .ok (handle, grown) => grown.insertChain handle rest

/-- **Insert a preamble in front**: its first instruction before the first one of the body, the others in a
chain behind it. -/
def insertInFront (b : Body) (p : Preamble) : Body × Except Fault Spliced :=
  match b.first? with
  | none => (b, .error .emptyBody)
  | some first =>
    if p.resume ≠ first then (b, .error (.unknownInstruction p.resume))
    else
      match p.instructions with
      | [] => (b, .ok ⟨first, first, 0⟩)
      | instruction :: rest =>
        match b.insertBefore first instruction with
        | .error fault => (b, .error fault)
        | .ok (entry, grown) =>
          match grown.insertChain entry rest with
          | (left, .error fault) => (left, .error fault)
          | (left, .ok ()) =>
            ({ left with maxStack := max left.maxStack p.maxStack },
              .ok ⟨entry, first, p.instructions.length⟩)

/-- **Inserting behind an instruction** that stands nowhere earlier puts the new one between it and the rest,
unless a target is missing. -/
theorem insertAfter_of_append {front behind : List Placed} {last : Placed}
    (code : b.code = front ++ last :: behind) (first : ∀ other ∈ front, other.handle ≠ last.handle) :
    b.insertAfter last.handle i = (checkTargets b.code.length i).map fun _ =>
      (⟨b.code.length⟩, { b with
        code := front ++ [last] ++ ⟨⟨b.code.length⟩, 0, i⟩ :: behind }) := by
  unfold insertAfter
  rw [position?_of_append code first]
  have split : b.code = (front ++ [last]) ++ behind := by
    rw [code, List.append_assoc]
    rfl
  have place := place_of_append (i := i) split
  rw [List.length_append, List.length_singleton] at place
  dsimp only
  rw [place]
  cases checkTargets b.code.length i <;> rfl

/-- **Inserting before an instruction** that stands nowhere earlier puts the new one between it and those in
front, unless a target is missing. -/
theorem insertBefore_of_append {front behind : List Placed} {next : Placed}
    (code : b.code = front ++ next :: behind) (first : ∀ other ∈ front, other.handle ≠ next.handle) :
    b.insertBefore next.handle i = (checkTargets b.code.length i).map fun _ =>
      (⟨b.code.length⟩, { b with code := front ++ ⟨⟨b.code.length⟩, 0, i⟩ :: next :: behind }) := by
  unfold insertBefore
  rw [position?_of_append code first]
  dsimp only
  rw [place_of_append code]
  cases checkTargets b.code.length i <;> rfl

/-- **Inserting before the first instruction** puts the new one in front, unless a target is missing. -/
theorem insertBefore_of_cons {start : Placed} {behind : List Placed} (code : b.code = start :: behind) :
    b.insertBefore start.handle i = (checkTargets b.code.length i).map fun _ =>
      (⟨b.code.length⟩, { b with code := ⟨⟨b.code.length⟩, 0, i⟩ :: b.code }) := by
  have front : b.code = [] ++ start :: behind := code
  have inserted := insertBefore_of_append (i := i) front (List.forall_mem_nil _)
  rwa [List.nil_append, ← code] at inserted

/-- **A chain of insertions** behind the instruction that was added last puts in what is accepted. -/
theorem insertChain_eq {front behind : List Placed} {last : Placed}
    (code : b.code = front ++ last :: behind) (newest : last.handle.index + 1 = b.code.length)
    (older : ∀ other ∈ front, other.handle.index < last.handle.index) :
    b.insertChain last.handle instructions
      = ({ b with code := front ++ last :: (accept b.code.length instructions).1 ++ behind },
          (accept b.code.length instructions).2) := by
  -- The front grows by one with each instruction, and the last one of it is always the newest.
  induction instructions generalizing b front last with
  | nil =>
    unfold insertChain accept
    simp only [List.append_assoc, List.cons_append, List.nil_append]
    rw [← code]
  | cons i rest ih =>
    have first : ∀ other ∈ front, other.handle ≠ last.handle := by
      intro other mem same
      have smaller := older other mem
      rw [same] at smaller
      exact Nat.lt_irrefl _ smaller
    unfold insertChain accept
    rw [insertAfter_of_append code first]
    cases passes : checkTargets b.code.length i with
    | error fault =>
      dsimp only [Except.map]
      simp only [List.append_assoc, List.cons_append, List.nil_append]
      rw [← code]
    | ok checked =>
      let new : Placed := ⟨⟨b.code.length⟩, 0, i⟩
      have length : (front ++ [last] ++ new :: behind).length = b.code.length + 1 := by
        rw [code]
        simp
        omega
      have older' : ∀ other ∈ front ++ [last], other.handle.index < new.handle.index := by
        intro other mem
        show other.handle.index < b.code.length
        rcases List.mem_append.mp mem with inFront | isLast
        · have smaller := older other inFront
          omega
        · rw [List.mem_singleton.mp isLast]
          omega
      have chain := @ih { b with code := front ++ [last] ++ new :: behind } (front ++ [last]) new rfl
        length.symm older'
      rw [length] at chain
      apply chain.trans
      simp only [List.append_assoc, List.cons_append, List.nil_append, new]

/-- **A splice is its insertions.** -/
theorem splice_eq_insertInFront (b : Body) (p : Preamble) : b.splice p = b.insertInFront p := by
  unfold splice insertInFront
  cases code : b.code with
  | nil => simp only [first?, code, List.head?_nil, Option.map_none]
  | cons start behind =>
    have starts : b.first? = some start.handle := by simp [first?, code]
    rw [starts]
    dsimp only
    by_cases resumes : p.resume ≠ start.handle
    · rw [if_pos resumes, if_pos resumes]
    · rw [if_neg resumes, if_neg resumes]
      cases shape : p.instructions with
      | nil => rfl
      | cons i rest =>
        dsimp only
        rw [insertBefore_of_cons code, ← code]
        unfold accept
        cases checkTargets b.code.length i with
        | error fault => rfl
        | ok checked =>
          let new : Placed := ⟨⟨b.code.length⟩, 0, i⟩
          have chain := @insertChain_eq { b with code := new :: b.code } rest [] b.code new rfl rfl
            (List.forall_mem_nil _)
          dsimp only [List.length_cons, List.nil_append] at chain
          dsimp only [Except.map]
          rw [chain]
          cases accept (b.code.length + 1) rest with
          | mk placed outcome => cases outcome <;> rfl

/-! ## (2) Splices -/

/-- Inserting a chain keeps a body well formed, however far it gets. -/
theorem WellFormed.insertChain (wf : b.WellFormed) (anchor : Handle)
    (instructions : List (Instruction Handle)) : (b.insertChain anchor instructions).1.WellFormed := by
  induction instructions generalizing b anchor with
  | nil => exact wf
  | cons i rest ih =>
    unfold Body.insertChain
    split
    · exact wf
    · next handle grown inserted => exact ih (wf.insertAfter inserted) handle

/-- **A splice keeps a body well formed**, whatever the preamble, and even if it fails. -/
theorem WellFormed.splice (wf : b.WellFormed) (p : Preamble) : (b.splice p).1.WellFormed := by
  rw [splice_eq_insertInFront]
  unfold insertInFront
  split
  · exact wf
  · next first starts =>
    split
    · exact wf
    · split
      · exact wf
      · next i rest shape =>
        split
        · exact wf
        · next entry grown inserted =>
          have chain := (wf.insertBefore inserted).insertChain entry rest
          split
          · next left fault result => rwa [result] at chain
          · next left result =>
            rw [result] at chain
            exact ⟨chain.handles, chain.targets⟩

/-- An empty body is left as it is. -/
theorem splice_of_empty (empty : b.first? = none) (p : Preamble) : b.splice p = (b, .error .emptyBody) := by
  unfold Body.splice
  rw [empty]

/-- A body that does not start where the preamble resumes is left as it is. -/
theorem splice_of_mismatch {first : Handle} (starts : b.first? = some first) (p : Preamble)
    (differs : p.resume ≠ first) : b.splice p = (b, .error (.unknownInstruction p.resume)) := by
  unfold Body.splice
  rw [starts]
  exact if_pos differs

/-- **The frame of a splice**: some instructions of the preamble stand in front of the body, under the next
free handles, and the depth of the stack may have changed. -/
theorem exists_of_splice (b : Body) (p : Preamble) :
    ∃ count maxStack, (b.splice p).1 = { b with
      maxStack, code := enlist b.code.length (p.instructions.take count) ++ b.code } := by
  have same : b = { b with
      maxStack := b.maxStack, code := enlist b.code.length (p.instructions.take 0) ++ b.code } := rfl
  cases starts : b.first? with
  | none =>
    refine ⟨0, b.maxStack, ?_⟩
    rw [splice_of_empty starts]
    exact same
  | some first =>
    by_cases resumes : p.resume = first
    · rw [← resumes] at starts
      rcases grounded_or_refused b.code.length p.instructions with
        all | ⟨before, i, after, target, shape, grounded, refused⟩
      · rw [splice_of_grounded starts all]
        exact ⟨p.instructions.length, _, by rw [List.take_length]⟩
      · rw [splice_of_refused starts shape grounded refused, shape]
        exact ⟨before.length, b.maxStack, by rw [List.take_left]⟩
    · refine ⟨0, b.maxStack, ?_⟩
      rw [splice_of_mismatch starts p resumes]
      exact same

/-- **Old handles keep what they name**: behind new handles the old ones are found as before. -/
theorem find?_enlist_append {handle : Handle} (old : handle.index < b.code.length)
    (code : c.code = enlist b.code.length instructions ++ b.code) : c.find? handle = b.find? handle := by
  have absent : (enlist b.code.length instructions).find? (·.handle == handle) = none := by
    rw [List.find?_eq_none]
    intro placed mem same
    have new := le_index_of_mem_enlist mem
    rw [eq_of_beq same] at new
    omega
  unfold find?
  rw [code, List.find?_append, absent, Option.none_or]

/-- **Splicing any preamble.** A splice is what its insertions one by one are. It is refused, and nothing
changes, if the body is empty or does not start where the preamble resumes. Otherwise all instructions of the
preamble are put in front of the body if each branches only to handles that are there by then; or else those
before the first that does not, and the fault is its first target that is not there. What was in the body
stays as it was, with its handles, its offsets and its order. -/
theorem WellFormed.splice_spec (wf : b.WellFormed) (p : Preamble) :
    b.splice p = b.insertInFront p
      ∧ (b.code = [] → b.splice p = (b, .error .emptyBody))
      ∧ (∀ first, b.first? = some first → p.resume ≠ first →
        b.splice p = (b, .error (.unknownInstruction p.resume)))
      ∧ (b.first? = some p.resume →
        (Grounded b.code.length p.instructions
          ∧ b.splice p = ({ b with
              maxStack := if p.instructions = [] then b.maxStack else max b.maxStack p.maxStack
              code := enlist b.code.length p.instructions ++ b.code },
            .ok ⟨if p.instructions = [] then p.resume else ⟨b.code.length⟩, p.resume,
              p.instructions.length⟩))
        ∨ ∃ before i after target, p.instructions = before ++ i :: after
          ∧ Grounded b.code.length before
          ∧ i.targets.find? (fun target => b.code.length + before.length ≤ target.index) = some target
          ∧ b.splice p = ({ b with code := enlist b.code.length before ++ b.code },
            .error (.danglingTarget target)))
      ∧ (b.splice p).1.WellFormed
      ∧ (∀ handle : Handle, handle.index < b.code.length →
        (b.splice p).1.find? handle = b.find? handle)
      ∧ ∃ count maxStack, (b.splice p).1 = { b with
          maxStack, code := enlist b.code.length (p.instructions.take count) ++ b.code } := by
  refine ⟨splice_eq_insertInFront b p, ?_, ?_, ?_, wf.splice p, ?_, exists_of_splice b p⟩
  · intro empty
    exact splice_of_empty (by rw [first?, empty]; rfl) p
  · intro first starts differs
    exact splice_of_mismatch starts p differs
  · intro starts
    rcases grounded_or_refused b.code.length p.instructions with
      all | ⟨before, i, after, target, shape, grounded, refused⟩
    · exact .inl ⟨all, splice_of_grounded starts all⟩
    · exact .inr ⟨before, i, after, target, shape, grounded, refused,
        splice_of_refused starts shape grounded refused⟩
  · intro handle old
    obtain ⟨count, maxStack, left⟩ := exists_of_splice b p
    exact find?_enlist_append old (congrArg Body.code left)

/-- A loop whose instructions were not added in the order of the layout. -/
def whirl : Body :=
  { empty with
    code := [⟨⟨2⟩, 0, .slot .ldarg 0⟩, ⟨⟨0⟩, 1, .branch .short .isTrue ⟨2⟩⟩, ⟨⟨1⟩, 3, .plain .ret⟩] }

/-- The third instruction branches to itself among others, and no handle is there for it yet; the second
branches to the first. -/
def stumble : Preamble :=
  ⟨[.plain .nop, .branch .long .always ⟨3⟩, .switch [⟨4⟩, ⟨5⟩, ⟨9⟩], .plain .nop], ⟨2⟩, 40⟩

/-- The splice stops behind the second instruction. -/
theorem WellFormed.splice_spec_whirl :
    whirl.WellFormed ∧ whirl.first? = some stumble.resume
      ∧ whirl.splice stumble = ({ whirl with
          code := ⟨⟨3⟩, 0, .plain .nop⟩ :: ⟨⟨4⟩, 0, .branch .long .always ⟨3⟩⟩ :: whirl.code },
        .error (.danglingTarget ⟨5⟩))
      ∧ whirl.insertInFront stumble = whirl.splice stumble
      ∧ (whirl.splice stumble).1.WellFormed
      ∧ (whirl.splice stumble).1.find? ⟨0⟩ = whirl.find? ⟨0⟩ := by
  have wf : whirl.WellFormed := ⟨by decide, by decide⟩
  obtain ⟨steps, -, -, outcome, left, old, -⟩ := wf.splice_spec stumble
  refine ⟨wf, rfl, ?_, steps.symm, left, old ⟨0⟩ (by decide)⟩
  rcases outcome rfl with ⟨grounded, -⟩ | ⟨before, i, after, target, shape, grounded, refused, result⟩
  · exact absurd (grounded 2 _ rfl ⟨5⟩ (by decide)) (by decide)
  · rfl

end Hotpatch.Body
