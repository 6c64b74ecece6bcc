import Hotpatch.Proofs.Effects
import Hotpatch.Patch.Preamble

/-! # The shape of a preamble

What is in a preamble once it could be built.

* **`PatchRegistry.validate_eq_ok_iff`** — what it means for a registry to be valid.
* **`MethodTarget.slot`** — the argument slot of a parameter as a number.
* **`storeArguments_eq_ok_iff`** — when the arguments can be stored, and by which instructions.
* **`build_eq_ok_iff`** — a preamble that was built asks, packs the arguments, calls and leaves.
* **`build_eq_error_iff`** — it cannot be built only for too many parameters.
* **`exists_front_of_build`** — it ends with `ret`, and goes on behind every other instruction.
* **`flatMap_targets_of_build`** — its only branch is to the instruction it resumes. -/

namespace Hotpatch

namespace PatchRegistry

/-- **Valid registries**: exactly those whose methods have the expected signatures. -/
theorem validate_eq_ok_iff {r : PatchRegistry} :
    r.validate = .ok () ↔ r.hasPatch.signature = hasPatchSignature
      ∧ r.callPatch.signature = callPatchSignature := by
  rw [validate]
  split
  case isTrue wrong => exact ⟨(nomatch ·), fun right => absurd right.1 wrong⟩
  case isFalse asks =>
    split
    case isTrue wrong => exact ⟨(nomatch ·), fun right => absurd right.2 wrong⟩
    case isFalse calls => exact ⟨fun _ => ⟨not_not.mp asks, not_not.mp calls⟩, fun _ => rfl⟩

/-- The two methods of a valid registry differ, by their signatures. -/
theorem callPatch_ne_hasPatch {r : PatchRegistry} (valid : r.validate = .ok ()) :
    r.callPatch ≠ r.hasPatch := by
  obtain ⟨asks, calls⟩ := validate_eq_ok_iff.mp valid
  -- One returns a truth value and the other an object.
  intro same
  rw [same, asks] at calls
  exact absurd calls (by decide)

/-- Running a patch of a valid registry leaves a value. -/
theorem returnsValue_eq_true {r : PatchRegistry} (valid : r.validate = .ok ()) :
    r.returnsValue = true := by
  rw [returnsValue, (validate_eq_ok_iff.mp valid).2]
  rfl

end PatchRegistry

namespace MethodTarget

/-- The **slot** of a parameter: its index, one further on when slot zero holds the object. -/
def slot (t : MethodTarget) (index : Nat) : Nat :=
  if t.isStatic then index else index + 1

/-- The slot of a parameter is at least its index. -/
theorem le_slot (t : MethodTarget) (index : Nat) : index ≤ t.slot index := by
  rw [slot]
  split <;> omega

/-- A parameter has an argument slot when the slot fits into an instruction. -/
@[simp] theorem argumentSlot?_eq_some_iff {t : MethodTarget} {index : Nat} {word : UInt16} :
    t.argumentSlot? index = some word ↔ t.slot index < 65536 ∧ word = .ofNat (t.slot index) := by
  rw [argumentSlot?, ← slot]
  by_cases fits : t.slot index < 65536
  · rw [if_pos fits, Option.some.injEq]
    exact ⟨fun h => ⟨fits, h.symm⟩, fun h => h.2.symm⟩
  · rw [if_neg fits]
    exact ⟨(nomatch ·), fun h => absurd h.1 fits⟩

/-- **Too many parameters** for their slots: the last one has the largest. -/
theorem exists_large_slot_iff {t : MethodTarget} :
    (∃ index < t.parameters.length, 65536 ≤ t.slot index)
      ↔ (if t.isStatic then 65536 else 65535) < t.parameters.length := by
  simp only [slot]
  split
  all_goals
    constructor
    · rintro ⟨index, _, _⟩
      omega
    · exact fun many => ⟨_, many, Nat.le_refl _⟩

end MethodTarget

namespace Preamble

/-! ## (1) The arguments -/

/-- The instructions that **pack** numbered parameters into the array on the stack. -/
def pack (t : MethodTarget) (parameters : List (TypeSig × Nat)) : List (Instruction Handle) :=
  parameters.flatMap fun parameter =>
    storeArgument parameter.2 (.ofNat (t.slot parameter.2)) parameter.1

/-- One parameter can be stored if it has a slot. -/
@[simp] theorem storeArgument_eq_ok_iff {t : MethodTarget} (parameter : TypeSig × Nat)
    (chunk : List (Instruction Handle)) :
    (match t.argumentSlot? parameter.2 with
      | some slot => Except.ok (storeArgument parameter.2 slot parameter.1)
      | none => .error (Fault.tooManyParameters t.parameters.length)) = .ok chunk
    ↔ t.slot parameter.2 < 65536
      ∧ chunk = storeArgument parameter.2 (.ofNat (t.slot parameter.2)) parameter.1 := by
  by_cases fits : t.slot parameter.2 < 65536
  · rw [MethodTarget.argumentSlot?_eq_some_iff.mpr ⟨fits, rfl⟩, Except.ok.injEq]
    exact ⟨fun h => ⟨fits, h.symm⟩, fun h => h.2.symm⟩
  · have none : t.argumentSlot? parameter.2 = none :=
      Option.eq_none_iff_forall_not_mem.mpr fun word found =>
        fits (MethodTarget.argumentSlot?_eq_some_iff.mp found).1
    rw [none]
    exact iff_of_false (by simp) fun h => fits h.1

/-- **When the arguments can be stored**: exactly when every parameter has a slot, and then they are
packed one after the other. -/
theorem storeArguments_eq_ok_iff {t : MethodTarget} {stores : List (Instruction Handle)} :
    storeArguments t = .ok stores
      ↔ (∀ index < t.parameters.length, t.slot index < 65536)
        ∧ stores = pack t t.parameters.zipIdx := by
  -- The condition is about indices, the list is one of numbered parameters.
  have numbered : (∀ parameter ∈ t.parameters.zipIdx, t.slot parameter.2 < 65536)
      ↔ ∀ index < t.parameters.length, t.slot index < 65536 := by
    constructor
    · intro all index bound
      exact all (t.parameters[index], index) (List.mem_zipIdx_iff_getElem?.mpr (by simp [bound]))
    · intro all parameter mem
      exact all parameter.2 (by simpa using List.snd_lt_of_mem_zipIdx mem)
  rw [storeArguments, Attempt.bind_eq_ok_iff]
  constructor
  · rintro ⟨chunks, stored, whole⟩
    obtain ⟨fits, rfl⟩ :=
      (Attempt.mapM_eq_ok_iff_forall fun parameter _ => storeArgument_eq_ok_iff parameter).mp stored
    refine ⟨numbered.mp fits, ?_⟩
    rw [← Except.ok.inj whole, pack, List.flatMap_def]
  · rintro ⟨fits, rfl⟩
    have stored := (Attempt.mapM_eq_ok_iff_forall fun parameter _ =>
      storeArgument_eq_ok_iff parameter).mpr ⟨numbered.mpr fits, rfl⟩
    refine ⟨_, stored, ?_⟩
    rw [pack, List.flatMap_def]
    rfl

/-- Packing arguments goes straight on: no instruction branches, and each is followed by the next. -/
theorem straight_of_mem_pack {t : MethodTarget} {parameters : List (TypeSig × Nat)}
    {instruction : Instruction Handle} (mem : instruction ∈ pack t parameters) :
    instruction.targets = [] ∧ instruction.fallsThrough = true := by
  obtain ⟨parameter, -, stored⟩ := List.mem_flatMap.mp mem
  rw [storeArgument] at stored
  -- Five instructions with boxing and four without.
  split at stored <;> simp at stored <;> rcases stored with rfl | rfl | rfl | rfl | rfl <;>
    exact ⟨rfl, rfl⟩

/-- Packing arguments branches nowhere. -/
@[simp] theorem flatMap_targets_pack (t : MethodTarget) (parameters : List (TypeSig × Nat)) :
    (pack t parameters).flatMap Instruction.targets = [] :=
  List.flatMap_eq_nil_iff.mpr fun _ mem => (straight_of_mem_pack mem).1

/-! ## (2) The whole preamble -/

/-- The instructions that **dispatch** to the patch: the keys, the packed arguments, the call, and
the way out. -/
def dispatch (t : MethodTarget) (registry : PatchRegistry) : List (Instruction Handle) :=
  keys t ++ [.ldcI4 (Int32.ofNat t.parameters.length), .typed .newarr .object]
    ++ pack t t.parameters.zipIdx ++ [.invoke .call registry.callPatch] ++ leave t registry

/-- **When a preamble can be built**: exactly when every parameter has a slot, and then it asks for a
patch and dispatches to it. -/
theorem build_eq_ok_iff {t : MethodTarget} {registry : PatchRegistry} {resume : Handle}
    {p : Preamble} :
    build t registry resume = .ok p
      ↔ (∀ index < t.parameters.length, t.slot index < 65536)
        ∧ p = ⟨ask t registry resume ++ dispatch t registry, resume,
          deepest (ask t registry resume ++ dispatch t registry)⟩ := by
  rw [build, Attempt.bind_eq_ok_iff]
  constructor
  · rintro ⟨stores, stored, whole⟩
    obtain ⟨fits, rfl⟩ := storeArguments_eq_ok_iff.mp stored
    refine ⟨fits, ?_⟩
    rw [← Except.ok.inj whole, dispatch]
    simp only [List.append_assoc]
  · rintro ⟨fits, rfl⟩
    refine ⟨_, storeArguments_eq_ok_iff.mpr ⟨fits, rfl⟩, ?_⟩
    rw [dispatch]
    simp only [List.append_assoc]
    rfl

/-- **When a preamble cannot be built**: exactly when a parameter has no slot, and the fault is that
there are too many of them. -/
theorem build_eq_error_iff {t : MethodTarget} {registry : PatchRegistry} {resume : Handle}
    {fault : Fault} :
    build t registry resume = .error fault
      ↔ (∃ index < t.parameters.length, 65536 ≤ t.slot index)
        ∧ fault = .tooManyParameters t.parameters.length := by
  have cause {fault : Fault} (failed : build t registry resume = .error fault) :
      fault = .tooManyParameters t.parameters.length := by
    -- Only storing the arguments can fail, and then it does for one of them.
    rcases Attempt.bind_eq_error_iff.mp failed with stores | ⟨_, -, returned⟩
    · rcases Attempt.bind_eq_error_iff.mp stores with each | ⟨_, -, returned⟩
      · obtain ⟨⟨type, index⟩, -, fails⟩ := Attempt.exists_of_mapM_eq_error each
        dsimp only at fails
        split at fails
        · cases fails
        · exact (Except.error.inj fails).symm
      · cases returned
    · cases returned
  constructor
  · intro failed
    refine ⟨?_, cause failed⟩
    by_contra fits
    have built : build t registry resume = .ok _ := build_eq_ok_iff.mpr
      ⟨fun index bound => Nat.lt_of_not_le fun large => fits ⟨index, bound, large⟩, rfl⟩
    cases failed.symm.trans built
  · rintro ⟨⟨index, bound, large⟩, rfl⟩
    cases built : build t registry resume with
    | ok p => exact absurd ((build_eq_ok_iff.mp built).1 index bound) (Nat.not_lt.mpr large)
    | error fault => rw [cause built]

/-- A preamble starts with the question for a patch and the branch around the dispatch. -/
theorem instructions_of_build {t : MethodTarget} {registry : PatchRegistry} {resume : Handle}
    {p : Preamble} (built : build t registry resume = .ok p) :
    p.instructions = (keys t ++ [.invoke .call registry.hasPatch])
      ++ .branch .long .isFalse resume :: dispatch t registry := by
  rw [(build_eq_ok_iff.mp built).2, ask, List.append_assoc, List.append_assoc]
  rfl

/-- Dispatching branches nowhere. -/
@[simp] theorem flatMap_targets_dispatch (t : MethodTarget) (registry : PatchRegistry) :
    (dispatch t registry).flatMap Instruction.targets = [] := by
  have leaving : (leave t registry).flatMap Instruction.targets = [] := by
    rw [leave]
    split
    · rfl
    · split <;> rfl
  simp only [dispatch, List.flatMap_append, flatMap_targets_pack, leaving]
  rfl

/-- **A preamble ends with `ret`**, and control goes on behind every other of its instructions. -/
theorem exists_front_of_build {t : MethodTarget} {registry : PatchRegistry} {resume : Handle}
    {p : Preamble} (built : build t registry resume = .ok p) :
    ∃ front, p.instructions = front ++ [.plain .ret] ∧ ∀ i ∈ front, i.fallsThrough = true := by
  obtain ⟨-, rfl⟩ := build_eq_ok_iff.mp built
  obtain ⟨way, leaves, goesOn⟩ : ∃ way, leave t registry = way ++ [.plain .ret]
      ∧ ∀ i ∈ way, i.fallsThrough = true := by
    refine ⟨_, rfl, fun i mem => ?_⟩
    split at mem
    · rw [List.mem_singleton.mp mem]; rfl
    · split at mem
      · rw [List.mem_singleton.mp mem]; rfl
      · cases mem
  refine ⟨ask t registry resume ++ (keys t ++ [.ldcI4 (Int32.ofNat t.parameters.length),
    .typed .newarr .object] ++ pack t t.parameters.zipIdx ++ [.invoke .call registry.callPatch]
    ++ way), ?_, fun i mem => ?_⟩
  · simp only [dispatch, leaves, List.append_assoc]
  · simp only [List.mem_append] at mem
    rcases mem with asking | (((keys | array) | packing) | call) | leaving
    · simp [ask, Preamble.keys] at asking
      rcases asking with rfl | rfl | rfl | rfl <;> rfl
    · simp [Preamble.keys] at keys
      rcases keys with rfl | rfl <;> rfl
    · simp at array
      rcases array with rfl | rfl <;> rfl
    · exact (straight_of_mem_pack packing).2
    · rw [List.mem_singleton.mp call]; rfl
    · exact goesOn i leaving

/-- **The only instruction of a preamble with a target** is the branch around the dispatch. -/
theorem targets_eq_nil_or_branch_of_build {t : MethodTarget} {registry : PatchRegistry}
    {resume : Handle} {p : Preamble} (built : build t registry resume = .ok p)
    {instruction : Instruction Handle} (mem : instruction ∈ p.instructions) :
    instruction.targets = [] ∨ instruction = .branch .long .isFalse resume := by
  rw [instructions_of_build built, List.mem_append, List.mem_cons] at mem
  rcases mem with asking | rfl | dispatching
  · left
    simp [keys] at asking
    rcases asking with rfl | rfl | rfl <;> rfl
  · exact .inr rfl
  · exact .inl (List.flatMap_eq_nil_iff.mp (flatMap_targets_dispatch t registry) _ dispatching)

/-- **A preamble branches once, to the instruction it resumes.** -/
theorem flatMap_targets_of_build {t : MethodTarget} {registry : PatchRegistry} {resume : Handle}
    {p : Preamble} (built : build t registry resume = .ok p) :
    p.instructions.flatMap Instruction.targets = [resume] := by
  obtain ⟨-, rfl⟩ := build_eq_ok_iff.mp built
  rw [List.flatMap_append, flatMap_targets_dispatch, List.append_nil]
  rfl

end Preamble

end Hotpatch
