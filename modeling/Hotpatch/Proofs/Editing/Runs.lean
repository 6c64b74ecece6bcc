import Mathlib.Data.List.Find
import Hotpatch.Proofs.Editing.Reachable

/-! # Runs of edits

What any number of edits makes of a body, whether they succeed or fail: instructions come in between others,
but none is lost, moved or renamed.

* **`Body.Made`** — a body before any edit; **`Edit.run`** — what edits leave of it.
* **`Body.layout`**, **`Body.listing`** — the handles in the order of the code, alone and with their
  instructions.
* **`Edit.code_sublist_apply`**, **`Edit.listing_sublist_run`** — what is listed stays, in its order.
* **`Body.Adds`** — what comes of adding an instruction; `WellFormed.adds_push` and its like say it of each
  way to add one.
* **`arena_of_made`** — the handles of a body through any edits. -/

namespace Hotpatch

/-! ## (1) Runs -/

/-- A body as it was **made**, before any edit. -/
inductive Body.Made : Body → Prop
  | empty : Made .empty
  | ofInstructions {instructions : List (Instruction Nat)} {b : Body}
      (made : Body.ofInstructions instructions = .ok b) : Made b
  | decoded {tokens : TokenTable} {bytes : List UInt8} {d : DecodedCode}
      (made : decodeCode tokens bytes = .ok d) : Made d.body

/-- Made bodies are reachable. -/
theorem Body.Made.reachable {b : Body} (made : b.Made) : b.Reachable := by
  cases made with
  | empty => exact .empty
  | ofInstructions made => exact .ofInstructions made
  | decoded made => exact .decoded made

/-- Made bodies are canonical. -/
theorem Body.Made.canonical {b : Body} (made : b.Made) : b.Canonical := by
  cases made with
  | empty => exact canonical_empty
  | ofInstructions made => exact canonical_of_ofInstructions made
  | decoded made => exact canonical_of_decodeCode made

/-- **Run** edits one after the other, and go on after those that fail. -/
def Edit.run (b : Body) (edits : List Edit) : Body :=
  edits.foldl Edit.apply b

/-- Edits lead from reachable bodies to reachable ones. -/
theorem Body.Reachable.run {b : Body} (reachable : b.Reachable) (edits : List Edit) :
    (Edit.run b edits).Reachable := by
  induction edits generalizing b with
  | nil => exact reachable
  | cons e edits ih => exact ih (reachable.edit e)

namespace Body

variable {b c : Body} {handle : Handle} {i : Instruction Handle}

/-! ## (2) Handles in their order -/

/-- The **layout**: the handles in the order of the code. -/
def layout (b : Body) : List Handle :=
  b.code.map (·.handle)

/-- The **listing**: the handles with their instructions, in the order of the code. -/
def listing (b : Body) : List (Handle × Instruction Handle) :=
  b.code.map fun placed => (placed.handle, placed.instruction)

/-- The layout is the listing without the instructions. -/
@[simp] theorem map_fst_listing (b : Body) : b.listing.map (·.1) = b.layout := by
  rw [listing, List.map_map]
  rfl

/-- **The layout of a well-formed body** has the handles below the number of instructions. -/
theorem WellFormed.mem_layout_iff (wf : b.WellFormed) :
    handle ∈ b.layout ↔ handle.index < b.code.length := by
  constructor
  · intro mem
    obtain ⟨placed, inCode, rfl⟩ := List.mem_map.mp mem
    exact wf.handle_lt inCode
  · intro small
    obtain ⟨position, placed, here, rfl⟩ := wf.exists_position small
    exact List.mem_map_of_mem (List.mem_of_getElem? here)

/-- **Each handle stands in the layout once**, and no other does. -/
theorem WellFormed.count_layout (wf : b.WellFormed) (handle : Handle) :
    b.layout.count handle = if handle.index < b.code.length then 1 else 0 := by
  split
  · next small => exact List.count_eq_one_of_mem wf.distinct (wf.mem_layout_iff.mpr small)
  · next large => exact List.count_eq_zero_of_not_mem fun mem => large (wf.mem_layout_iff.mp mem)

/-- **A handle names what is listed with it.** -/
theorem WellFormed.instruction?_eq_some_iff (wf : b.WellFormed) :
    b.instruction? handle = some i ↔ (handle, i) ∈ b.listing := by
  rw [instruction?, Option.map_eq_some_iff, listing, List.mem_map]
  simp only [find?_eq_some_iff wf.distinct, and_assoc, Prod.mk.injEq]

end Body

/-! ## (3) What edits keep -/

namespace Edit

variable {b : Body}

/-- What an attempt puts in stands between what was there. -/
theorem code_sublist_attempt {i : Instruction Handle} {added : Except Fault (Handle × Body)}
    (placing : b.Placing i added) : b.code.Sublist (attempt b added).code := by
  cases outcome : added with
  | error fault => exact List.Sublist.refl _
  | ok grown =>
    obtain ⟨handle, c⟩ := grown
    obtain ⟨position, -, -, placed⟩ := placing handle c outcome
    obtain ⟨rfl, rfl⟩ := Prod.mk.inj placed
    exact List.sublist_insertIdx _ _ _

/-- **What edits put in stands between what was there**, unless they lay out the code anew. -/
theorem code_sublist_apply {e : Edit} (keeps : e ≠ .recomputeOffsets) :
    b.code.Sublist (e.apply b).code := by
  cases e with
  | push i => exact code_sublist_attempt (b.placing_push i)
  | insertBefore anchor i => exact code_sublist_attempt (b.placing_insertBefore anchor i)
  | insertAfter anchor i => exact code_sublist_attempt (b.placing_insertAfter anchor i)
  | splice p =>
    obtain ⟨count, maxStack, left⟩ := Body.exists_of_splice b p
    rw [apply, left]
    exact List.sublist_append_right _ _
  | recomputeOffsets => exact absurd rfl keeps
  | adjust maxStack initLocals locals points => exact List.Sublist.refl _

/-- **An edit keeps what is listed**, in its order. -/
theorem listing_sublist_apply (b : Body) (e : Edit) : b.listing.Sublist (e.apply b).listing := by
  by_cases anew : e = .recomputeOffsets
  · -- Recomputing changes the offsets alone, and these are not listed.
    subst anew
    have same := Body.map_layOut (f := fun placed => (placed.handle, placed.instruction))
      (fun _ _ => rfl) 0 b.code
    rw [apply, Body.recomputeOffsets, Body.listing, Body.listing, same]
  · exact (code_sublist_apply anew).map _

/-- **Edits keep what is listed**, in its order. -/
theorem listing_sublist_run (b : Body) (edits : List Edit) : b.listing.Sublist (run b edits).listing := by
  induction edits generalizing b with
  | nil => exact List.Sublist.refl _
  | cons e edits ih => exact (listing_sublist_apply b e).trans (ih (e.apply b))

/-- The handles that an edit **returns**. -/
def returned (b : Body) : Edit → List Handle
  | push instruction => given (b.push instruction)
  | insertBefore anchor instruction => given (b.insertBefore anchor instruction)
  | insertAfter anchor instruction => given (b.insertAfter anchor instruction)
  | splice p =>
    match (b.splice p).2 with
    | .ok spliced => [spliced.entry, spliced.resume]
    | .error _ => []
  | recomputeOffsets | adjust .. => []
where
  /-- The new handle, if there is one. -/
  given : Except Fault (Handle × Body) → List Handle
    | .ok (handle, _) => [handle]
    | .error _ => []

/-- The new handle of an attempt is in the layout afterwards. -/
theorem mem_layout_of_given {i : Instruction Handle} {added : Except Fault (Handle × Body)}
    (placing : b.Placing i added) {handle : Handle} (hit : handle ∈ returned.given added) :
    handle ∈ (attempt b added).layout := by
  cases outcome : added with
  | error fault =>
    rw [outcome] at hit
    cases hit
  | ok grown =>
    obtain ⟨new, c⟩ := grown
    rw [outcome] at hit
    obtain rfl := List.mem_singleton.mp hit
    obtain ⟨position, bound, -, placed⟩ := placing handle c outcome
    obtain ⟨rfl, rfl⟩ := Prod.mk.inj placed
    exact List.mem_map_of_mem ((List.mem_insertIdx bound).mpr (.inl rfl))

/-- A splice returns where the method starts now and where it started before, and both are in the layout. -/
theorem mem_layout_of_splice {p : Preamble} {spliced : Spliced} (done : (b.splice p).2 = .ok spliced) :
    spliced.entry ∈ (b.splice p).1.layout ∧ spliced.resume ∈ (b.splice p).1.layout := by
  -- A splice returns handles only if it resumes at the first instruction and all its own are accepted.
  cases starts : b.first? with
  | none =>
    rw [Body.splice_of_empty starts] at done
    cases done
  | some first =>
    by_cases resumes : p.resume = first
    · rw [← resumes] at starts
      rcases Body.grounded_or_refused b.code.length p.instructions with
        all | ⟨before, i, after, target, shape, grounded, refused⟩
      · rw [Body.splice_of_grounded starts all] at done ⊢
        obtain rfl := Except.ok.inj done
        obtain ⟨placed, here, same⟩ := Option.map_eq_some_iff.mp starts
        have resume : p.resume ∈ (Body.enlist b.code.length p.instructions ++ b.code).map (·.handle) := by
          rw [List.map_append, ← same]
          exact List.mem_append_right _ (List.mem_map_of_mem (List.mem_of_mem_head? here))
        refine ⟨?_, resume⟩
        cases shape : p.instructions with
        | nil =>
          rw [shape] at resume
          exact resume
        | cons i rest =>
          show _ ∈ (Body.enlist b.code.length (i :: rest) ++ b.code).map (·.handle)
          rw [Body.enlist_cons]
          exact List.mem_cons_self
      · rw [Body.splice_of_refused starts shape grounded refused] at done
        cases done
    · rw [Body.splice_of_mismatch starts p resumes] at done
      cases done

/-- **What an edit returns is in the layout** afterwards. -/
theorem mem_layout_of_returned {e : Edit} {handle : Handle} (hit : handle ∈ e.returned b) :
    handle ∈ (e.apply b).layout := by
  cases e with
  | push i => exact mem_layout_of_given (b.placing_push i) hit
  | insertBefore anchor i => exact mem_layout_of_given (b.placing_insertBefore anchor i) hit
  | insertAfter anchor i => exact mem_layout_of_given (b.placing_insertAfter anchor i) hit
  | splice p =>
    rw [returned] at hit
    split at hit
    · next spliced done =>
      obtain ⟨entry, resume⟩ := mem_layout_of_splice done
      rcases List.mem_cons.mp hit with rfl | rest
      · exact entry
      · exact List.mem_singleton.mp rest ▸ resume
    · cases hit
  | recomputeOffsets => cases hit
  | adjust maxStack initLocals locals points => cases hit

end Edit

namespace Body

variable {b : Body} {handle anchor : Handle} {i : Instruction Handle}

/-- **Handles keep what they name** through any edits. -/
theorem Reachable.instruction?_run (reachable : b.Reachable) (named : b.instruction? handle = some i)
    (edits : List Edit) : (Edit.run b edits).instruction? handle = some i := by
  have listed := reachable.wellFormed.instruction?_eq_some_iff.mp named
  have kept := (Edit.listing_sublist_run b edits).subset listed
  exact (reachable.run edits).wellFormed.instruction?_eq_some_iff.mpr kept

/-- Every handle in the layout names an instruction. -/
theorem WellFormed.exists_instruction? (wf : b.WellFormed) (mem : handle ∈ b.layout) :
    ∃ i, b.instruction? handle = some i := by
  obtain ⟨placed, inCode, rfl⟩ := List.mem_map.mp mem
  exact ⟨placed.instruction, wf.instruction?_eq_some_iff.mpr (List.mem_map_of_mem inCode)⟩

/-! ## (4) Adding instructions -/

/-- What comes of **adding** an instruction to a body: if all its targets are in the layout it is there under
the next handle, and the code is the one given; if not, the first of them that is missing is the fault. -/
def Adds (b : Body) (i : Instruction Handle) (code : List Placed) (added : Except Fault (Handle × Body)) :
    Prop :=
  ((∀ target ∈ i.targets, target ∈ b.layout) → added = .ok (⟨b.code.length⟩, { b with code }))
    ∧ ∀ target, i.targets.find? (fun target => target ∉ b.layout) = some target →
      added = .error (.danglingTarget target)

/-- **Adding is checking the targets** and then changing the code. -/
theorem WellFormed.adds_of_checked (wf : b.WellFormed) {code : List Placed}
    {added : Except Fault (Handle × Body)}
    (checked : added = (checkTargets b.code.length i).map fun _ => (⟨b.code.length⟩, { b with code })) :
    b.Adds i code added := by
  refine ⟨fun present => ?_, fun target missing => ?_⟩
  · have below := fun target hit => wf.mem_layout_iff.mp (present target hit)
    rw [checked, checkTargets_eq_ok_iff.mpr below]
    rfl
  · have first : i.targets.find? (fun target => b.code.length ≤ target.index) = some target := by
      rw [← missing]
      refine List.find?_congr fun other _ => decide_eq_decide.mpr ?_
      rw [wf.mem_layout_iff, Nat.not_lt]
    rw [checked, checkTargets_eq_error_iff.mpr ⟨target, first, rfl⟩]
    rfl

/-- **Pushing** adds an instruction at the end. -/
theorem WellFormed.adds_push (wf : b.WellFormed) :
    b.Adds i (b.code ++ [⟨⟨b.code.length⟩, 0, i⟩]) (b.push i) := by
  refine wf.adds_of_checked ?_
  have place := place_of_append (i := i) (List.append_nil b.code).symm
  unfold push
  rw [place]
  cases checkTargets b.code.length i <;> rfl

/-- In front of an instruction no other has its handle. -/
theorem WellFormed.ne_of_append (wf : b.WellFormed) {front behind : List Placed} {placed : Placed}
    (code : b.code = front ++ placed :: behind) : ∀ other ∈ front, other.handle ≠ placed.handle := by
  have distinct := wf.distinct
  rw [Distinct, code, List.map_append, List.map_cons, List.nodup_append] at distinct
  exact fun other mem => distinct.2.2 _ (List.mem_map_of_mem mem) _ List.mem_cons_self

/-- **Inserting** beside an instruction adds the new one right there. -/
theorem WellFormed.adds_insert (wf : b.WellFormed) {front behind : List Placed} {placed : Placed}
    (code : b.code = front ++ placed :: behind) :
    b.Adds i (front ++ ⟨⟨b.code.length⟩, 0, i⟩ :: placed :: behind) (b.insertBefore placed.handle i)
      ∧ b.Adds i (front ++ placed :: ⟨⟨b.code.length⟩, 0, i⟩ :: behind)
        (b.insertAfter placed.handle i) := by
  have first := wf.ne_of_append code
  refine ⟨wf.adds_of_checked (insertBefore_of_append code first), wf.adds_of_checked ?_⟩
  rw [insertAfter_of_append code first, List.append_assoc]
  rfl

/-- **No insertion beside a handle that is missing.** -/
theorem insert_of_notMem (missing : anchor ∉ b.layout) :
    b.insertBefore anchor i = .error (.unknownInstruction anchor)
      ∧ b.insertAfter anchor i = .error (.unknownInstruction anchor) := by
  have nowhere : b.position? anchor = none := by
    rw [position?, List.findIdx?_eq_none_iff]
    intro placed mem
    exact beq_false_of_ne fun same => missing (same ▸ List.mem_map_of_mem mem)
  unfold insertBefore insertAfter
  rw [nowhere]
  exact ⟨rfl, rfl⟩

/-- What was added names the instruction. -/
theorem WellFormed.instruction?_of_placing (wf : b.WellFormed) {c : Body}
    {added : Except Fault (Handle × Body)} (placing : b.Placing i added) (done : added = .ok (handle, c)) :
    c.instruction? handle = some i := by
  rw [(wf.of_placing placing done).instruction?_eq_some_iff]
  obtain ⟨position, bound, -, placed⟩ := placing handle c done
  obtain ⟨rfl, rfl⟩ := Prod.mk.inj placed
  exact List.mem_map_of_mem (f := fun placed : Placed => (placed.handle, placed.instruction))
    ((List.mem_insertIdx bound).mpr (.inl rfl))

/-- **What was added is named for good.** -/
theorem Reachable.instruction?_run_of_placing (reachable : b.Reachable) {c : Body}
    {added : Except Fault (Handle × Body)} (placing : b.Placing i added) {e : Edit}
    (attempted : e.apply b = Edit.attempt b added) (done : added = .ok (handle, c)) (later : List Edit) :
    (Edit.run c later).instruction? handle = some i := by
  have named := reachable.wellFormed.instruction?_of_placing placing done
  have onward := reachable.edit e
  rw [attempted, done] at onward
  exact onward.instruction?_run named later

end Body

/-! ## (5) The handles of a body -/

/-- **Handles through edits.** Whatever edits a body went through since it was made, of which some may have
failed: its layout has each handle below the number of instructions once, and no other; all targets are in the
layout. What a handle names it names for good, and all handles that an edit returns name something, those of
added instructions the instruction that was added. An edit leaves the layout in its order. An instruction that
is added comes at the end, or right before or right behind the anchor, and with it nothing else changes; if the
anchor is missing, or else a target, this is the fault, and nothing changes. -/
theorem arena_of_made {start b : Body} (made : start.Made) {edits : List Edit}
    (reached : Edit.run start edits = b) (i : Instruction Handle) (anchor : Handle) :
    ((∀ handle, b.layout.count handle = if handle.index < b.code.length then 1 else 0)
      ∧ ∀ placed ∈ b.code, ∀ target ∈ placed.instruction.targets, target ∈ b.layout)
    ∧ (∀ handle ∈ b.layout, ∃ instruction, b.instruction? handle = some instruction
      ∧ ∀ later, (Edit.run b later).instruction? handle = some instruction)
    ∧ (∀ e, ∀ handle ∈ e.returned b, ∃ instruction,
      ∀ later, (Edit.run b (e :: later)).instruction? handle = some instruction)
    ∧ (∀ handle c, b.push i = .ok (handle, c) ∨ b.insertBefore anchor i = .ok (handle, c)
        ∨ b.insertAfter anchor i = .ok (handle, c) →
      ∀ later, (Edit.run c later).instruction? handle = some i)
    ∧ (∀ e : Edit, b.layout.Sublist (e.apply b).layout)
    ∧ b.Adds i (b.code ++ [⟨⟨b.code.length⟩, 0, i⟩]) (b.push i)
    ∧ (∀ front placed behind, b.code = front ++ placed :: behind → placed.handle = anchor →
      b.Adds i (front ++ ⟨⟨b.code.length⟩, 0, i⟩ :: placed :: behind) (b.insertBefore anchor i)
        ∧ b.Adds i (front ++ placed :: ⟨⟨b.code.length⟩, 0, i⟩ :: behind) (b.insertAfter anchor i))
    ∧ (anchor ∉ b.layout → b.insertBefore anchor i = .error (.unknownInstruction anchor)
      ∧ b.insertAfter anchor i = .error (.unknownInstruction anchor))
    ∧ ∀ fault, (b.push i = .error fault → (Edit.push i).apply b = b)
      ∧ (b.insertBefore anchor i = .error fault → (Edit.insertBefore anchor i).apply b = b)
      ∧ (b.insertAfter anchor i = .error fault → (Edit.insertAfter anchor i).apply b = b) := by
  have reachable : b.Reachable := reached ▸ made.reachable.run edits
  have wf := reachable.wellFormed
  refine ⟨⟨wf.count_layout, fun placed mem target hit => ?_⟩, fun handle mem => ?_, fun e handle hit => ?_,
    fun handle c outcome later => ?_, fun e => ?_, wf.adds_push, ?_, Body.insert_of_notMem, fun fault => ?_⟩
  · exact wf.mem_layout_iff.mpr (wf.targets placed mem target hit)
  · obtain ⟨instruction, named⟩ := wf.exists_instruction? mem
    exact ⟨instruction, named, reachable.instruction?_run named⟩
  · obtain ⟨instruction, named⟩ :=
      (reachable.edit e).wellFormed.exists_instruction? (Edit.mem_layout_of_returned hit)
    exact ⟨instruction, (reachable.edit e).instruction?_run named⟩
  · rcases outcome with done | done | done
    · exact reachable.instruction?_run_of_placing (b.placing_push i) (e := .push i) rfl done later
    · exact reachable.instruction?_run_of_placing (b.placing_insertBefore anchor i)
        (e := .insertBefore anchor i) rfl done later
    · exact reachable.instruction?_run_of_placing (b.placing_insertAfter anchor i)
        (e := .insertAfter anchor i) rfl done later
  · have kept := (Edit.listing_sublist_apply b e).map (·.1)
    rwa [Body.map_fst_listing, Body.map_fst_listing] at kept
  · rintro front placed behind code rfl
    exact wf.adds_insert code
  · refine ⟨fun failed => ?_, fun failed => ?_, fun failed => ?_⟩ <;> rw [Edit.apply, failed] <;> rfl

/-- A jump over nothing, after a push with a missing target, an insertion beside a missing handle and a splice
that fails midway, and one insertion that succeeds. -/
theorem arena_of_made_battered :
    ∃ start, Body.ofInstructions [.branch .short .always 1, .plain .ret] = .ok start
      ∧ ∃ b, Edit.run start [.push (.switch [⟨1⟩, ⟨9⟩]), .insertBefore ⟨7⟩ (.plain .nop),
          .splice ⟨[.plain .nop, .branch .short .always ⟨9⟩], ⟨0⟩, 1⟩, .insertAfter ⟨0⟩ (.plain .nop)] = b
        ∧ b.layout = [⟨2⟩, ⟨0⟩, ⟨3⟩, ⟨1⟩] ∧ (Edit.push (.switch [⟨0⟩, ⟨4⟩])).apply b = b
        ∧ ∀ later, (Edit.run b later).instruction? ⟨1⟩ = some (.plain .ret) := by
  obtain ⟨start, makes, b, reached, layout, named⟩ :
      ∃ start, Body.ofInstructions [.branch .short .always 1, .plain .ret] = .ok start
        ∧ ∃ b, Edit.run start [.push (.switch [⟨1⟩, ⟨9⟩]), .insertBefore ⟨7⟩ (.plain .nop),
            .splice ⟨[.plain .nop, .branch .short .always ⟨9⟩], ⟨0⟩, 1⟩, .insertAfter ⟨0⟩ (.plain .nop)] = b
          ∧ b.layout = [⟨2⟩, ⟨0⟩, ⟨3⟩, ⟨1⟩] ∧ b.instruction? ⟨1⟩ = some (.plain .ret) :=
    ⟨_, rfl, _, rfl, by decide, rfl⟩
  obtain ⟨-, kept, -, -, -, pushed, -, -, unchanged⟩ :=
    arena_of_made (.ofInstructions makes) reached (.switch [⟨0⟩, ⟨4⟩]) ⟨7⟩
  have refused := pushed.2 ⟨4⟩ (by rw [layout]; decide)
  obtain ⟨instruction, now, later⟩ := kept ⟨1⟩ (by rw [layout]; decide)
  obtain rfl := Option.some.inj (named.symm.trans now)
  exact ⟨start, makes, b, reached, layout, (unchanged _).1 refused, later⟩

end Hotpatch
