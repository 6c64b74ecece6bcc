import Hotpatch.Proofs.Image.NormalForm
import Hotpatch.Proofs.Patch.Instrumenting

/-! # Outcomes for modules of files

Why a module that was read from files may not be instrumented, and what can be written for it if it is.

* **`Site.Unpatchable`** — methods that can have no preamble: those with an empty body, and those with
  too many parameters.
* **`Site.patchedSize`** — the size of the code of a method with its preamble.
* **`Module.instrument_of_ofFiles`** — these are the only reasons to fail, in this order, and what was
  instrumented can be written unless another body is too large. -/

namespace Hotpatch

/-! ## (1) Methods -/

namespace Site

variable {s : Site} {registry : PatchRegistry} {p : Preamble} {fault : Fault}

/-- A method that **cannot be patched**, and why: its body is empty, or else it has more parameters than
there are slots for them, one of which holds the object if the method is not static. -/
def Unpatchable (s : Site) (fault : Fault) : Prop :=
  ∃ b, s.method.body? = some b ∧ ((b.code = [] ∧ fault = .emptyBody)
    ∨ (b.code ≠ [] ∧ (if s.method.isStatic then 65536 else 65535) < s.method.parameters.length
      ∧ fault = .tooManyParameters s.method.parameters.length))

/-- **A method has no preamble** exactly if it cannot be patched. -/
theorem preamble_eq_error_iff (has : s.method.body?.isSome) :
    s.preamble registry = .error fault ↔ s.Unpatchable fault := by
  obtain ⟨b, has⟩ := Option.isSome_iff_exists.mp has
  have body (P : Body → Prop) : (∃ b, s.method.body? = some b ∧ P b) ↔ P b := by
    rw [has]
    constructor
    · rintro ⟨_, same, holds⟩
      exact Option.some.inj same ▸ holds
    · exact fun holds => ⟨b, rfl, holds⟩
  rw [Unpatchable, body, preamble, has, Option.bind_some]
  cases code : b.code with
  | nil =>
    rw [Body.first?, code]
    show Except.error Fault.emptyBody = Except.error fault ↔ _
    rw [Except.error.injEq]
    constructor
    · rintro rfl
      exact .inl ⟨rfl, rfl⟩
    · rintro (⟨-, rfl⟩ | ⟨some_code, -⟩)
      · rfl
      · exact absurd rfl some_code
  | cons first rest =>
    have count : (MethodTarget.ofMethod s.owner s.method).parameters.length
        = s.method.parameters.length := List.length_map _
    rw [Body.first?, code]
    show Preamble.build _ registry first.handle = .error fault ↔ _
    rw [Preamble.build_eq_error_iff, MethodTarget.exists_large_slot_iff, count]
    constructor
    · exact fun many => .inr ⟨List.cons_ne_nil _ _, many⟩
    · rintro (⟨none, -⟩ | ⟨-, many⟩)
      · cases none
      · exact many

/-- A method with a body that can be patched has a preamble. -/
theorem exists_preamble (has : s.method.body?.isSome) (patchable : ∀ fault, ¬ s.Unpatchable fault) :
    ∃ p, s.preamble registry = .ok p := by
  cases made : s.preamble registry with
  | ok p => exact ⟨p, rfl⟩
  | error fault => exact absurd ((preamble_eq_error_iff has).mp made) (patchable fault)

/-- The **size** of the code of the patched method. -/
def patchedSize (registry : PatchRegistry) (s : Site) : Nat :=
  ((s.patched registry).body?.map Body.codeSize).getD 0

/-- The patched method of a settled one can be encoded unless it is too large. -/
theorem patchedFault?_of_settled (made : s.preamble registry = .ok p)
    (settled : ∀ b, s.method.body? = some b → b.Settled) :
    s.patchedFault? registry = if Body.maxCodeSize < s.patchedSize registry
      then some (.codeTooLarge (s.patchedSize registry)) else none := by
  obtain ⟨b, first, has, starts, built⟩ := exists_of_preamble made
  have below := (settled b has).wellFormed.targets_lt_of_build starts built
  have body : (s.patched registry).body? = some (b.patched p) := by
    rw [patched, made]
    dsimp only
    rw [MethodDef.mapBody, has, Option.map_some]
  rw [patchedFault?, patchedSize, body, Option.bind_some, Option.map_some, Option.getD_some]
  exact (settled b has).fault?_patched below built

end Site

/-! ## (2) Modules -/

namespace Module

variable {m : Module} {markers : MarkerNames} {registry : PatchRegistry} {image : List UInt8}
  {symbols? : Option (List UInt8)}

/-- **The bodies of a patched module** are those of the selected methods, patched, and all others. -/
theorem exists_of_mem_bodies_patched
    (made : ∀ s ∈ m.selected markers, ∃ p, s.preamble registry = .ok p) {b : Body}
    (mem : b ∈ (m.patched markers registry).bodies) :
    ∃ s ∈ m.sites, (s ∈ m.selected markers ∧ ∃ old p, s.method.body? = some old
        ∧ s.preamble registry = .ok p ∧ b = old.patched p)
      ∨ s ∉ m.selected markers ∧ s.method.body? = some b := by
  obtain ⟨s, inModule, has⟩ := mem_bodies_patched.mp mem
  refine ⟨s, inModule, ?_⟩
  by_cases isSelected : s ∈ m.selected markers
  · obtain ⟨p, preamble⟩ := made s isSelected
    rw [onSelected_of_mem _ isSelected, Site.patched, preamble] at has
    obtain ⟨old, had, same⟩ := Option.map_eq_some_iff.mp has
    exact .inl ⟨isSelected, old, p, had, preamble, same.symm⟩
  · rw [onSelected_of_not_mem _ inModule isSelected] at has
    exact .inr ⟨isSelected, has⟩

section Settled

variable (settled : ∀ b ∈ m.bodies, b.Settled)

include settled

/-- The bodies of the sites are settled. -/
theorem settled_of_mem_sites {s : Site} (mem : s ∈ m.sites) :
    ∀ b, s.method.body? = some b → b.Settled :=
  fun b has => settled b (mem_bodies_iff.mpr ⟨s, mem, has⟩)

variable (made : ∀ s ∈ m.selected markers, ∃ p, s.preamble registry = .ok p)

include made

/-- **Patched modules are well formed.** -/
theorem wellFormed_patched : (m.patched markers registry).WellFormed := by
  intro b mem
  obtain ⟨s, inModule, ⟨-, old, p, has, preamble, rfl⟩ | ⟨-, has⟩⟩ :=
    exists_of_mem_bodies_patched made mem
  · have wf := (settled_of_mem_sites settled inModule old has).wellFormed
    exact wf.patched (Site.targets_lt_of_preamble preamble has wf)
  · exact (settled_of_mem_sites settled inModule b has).wellFormed

/-- **The symbols of a patched module can be written**: all offsets are current, and no points are
elsewhere. -/
theorem exists_writeSymbols_patched :
    ∃ symbols, (m.patched markers registry).writeSymbols = .ok symbols := by
  refine ⟨_, (writeSymbols_eq_ok_iff (wellFormed_patched settled made)).mpr ⟨fun place mem => ?_, rfl⟩⟩
  obtain ⟨s, inModule, ⟨-, old, p, has, -, body⟩ | ⟨-, has⟩⟩ :=
    exists_of_mem_bodies_patched made (mem_bodies_of_mem_pointed mem)
  · rw [body]
    refine ⟨Body.current_patched, fun point hit => ?_⟩
    have inside := (settled_of_mem_sites settled inModule old has).points point hit
    rw [Body.length_patched]
    omega
  · have settledOld := settled_of_mem_sites settled inModule _ has
    exact ⟨settledOld.current, settledOld.points⟩

/-- **The faults of what was instrumented** are those of bodies that are as before, and too large. -/
theorem exists_of_fault?_patched
    (encodes : ∀ s ∈ m.selected markers, s.patchedFault? registry = none) {b : Body}
    (mem : b ∈ (m.patched markers registry).bodies) {fault : Fault} (fails : b.fault? = some fault) :
    ∃ s ∈ m.sites, s ∉ m.selected markers ∧ ∃ b, s.method.body? = some b
      ∧ Body.maxCodeSize < b.codeSize ∧ fault = .codeTooLarge b.codeSize := by
  obtain ⟨s, inModule, ⟨isSelected, old, p, has, preamble, rfl⟩ | ⟨unselected, has⟩⟩ :=
    exists_of_mem_bodies_patched made mem
  · have noFault := encodes s isSelected
    rw [Site.patchedFault?, Site.patched, preamble] at noFault
    dsimp only at noFault
    rw [MethodDef.mapBody, has, Option.map_some, Option.bind_some, fails] at noFault
    cases noFault
  · rw [(settled_of_mem_sites settled inModule b has).fault?_eq] at fails
    split at fails
    · next large => exact ⟨s, inModule, unselected, b, has, large, (Option.some.inj fails).symm⟩
    · cases fails

omit made

/-- **What was instrumented can be written** unless a body that was not selected is too large, and its
symbols can be written in any case. -/
theorem write_of_instrumented {names : List String}
    (done : (m.instrument markers registry).result = .ok (.instrumented names)) :
    (∃ symbols, (m.instrument markers registry).module.writeSymbols = .ok symbols)
      ∧ ((∃ bytes, (m.instrument markers registry).module.write = .ok bytes)
        ↔ ∀ s ∈ m.sites, s ∉ m.selected markers → ∀ b, s.method.body? = some b →
          b.codeSize ≤ Body.maxCodeSize)
      ∧ ∀ fault, (m.instrument markers registry).module.write = .error fault →
        ∃ s ∈ m.sites, s ∉ m.selected markers ∧ ∃ b, s.method.body? = some b
          ∧ Body.maxCodeSize < b.codeSize ∧ fault = .codeTooLarge b.codeSize := by
  have wf : m.WellFormed := fun b mem => (settled b mem).wellFormed
  obtain ⟨-, made, encodes, module⟩ := exists_of_instrumented wf done
  rw [module]
  have wfPatched := wellFormed_patched settled made
  refine ⟨exists_writeSymbols_patched settled made, ?_, ?_⟩
  · rw [exists_write_iff wfPatched, fault?, List.findSome?_eq_none_iff]
    constructor
    · intro noFault s inModule unselected b has
      have mem : b ∈ (m.patched markers registry).bodies := by
        refine mem_bodies_patched.mpr ⟨s, inModule, ?_⟩
        rwa [onSelected_of_not_mem _ inModule unselected]
      exact (Body.current_of_fault?_eq_none (noFault b mem)).2
    · intro small b mem
      by_contra some_fault
      obtain ⟨fault, fails⟩ := Option.ne_none_iff_exists'.mp some_fault
      obtain ⟨s, inModule, unselected, b, has, large, -⟩ :=
        exists_of_fault?_patched settled made encodes mem fails
      exact absurd (small s inModule unselected b has) (Nat.not_le.mpr large)
  · intro fault failed
    obtain ⟨b, mem, fails⟩ := exists_of_write_eq_error wfPatched failed
    exact exists_of_fault?_patched settled made encodes mem fails

variable (unmarked : m.hasMarker markers.injected = false)

include unmarked

/-- **The first method that cannot be patched** is why a module is not instrumented. -/
theorem result_of_first_unpatchable {front back : List Site} {s : Site} {fault : Fault}
    (split : m.selected markers = front ++ s :: back)
    (patchable : ∀ s' ∈ front, ∀ fault', ¬ s'.Unpatchable fault') (fails : s.Unpatchable fault) :
    (m.instrument markers registry).result = .error (s.failure .synthesized fault) := by
  have wf : m.WellFormed := fun b mem => (settled b mem).wellFormed
  obtain ⟨mem, -, -, inFront⟩ := selected_split split
  have hasBody {s : Site} (mem : s ∈ m.selected markers) := (mem_selected.mp mem).2.hasBody
  exact (instrument_of_first_synthesis unmarked wf mem
    (fun s' mem' earlier => Site.exists_preamble (hasBody mem') (patchable s' (inFront s' mem' earlier)))
    ((Site.preamble_eq_error_iff (hasBody mem)).mpr fails)).1

omit unmarked in
/-- If all selected methods can be patched they have preambles, and the only fault is their size. -/
theorem preambles_of_patchable (registry : PatchRegistry)
    (patchable : ∀ s ∈ m.selected markers, ∀ fault, ¬ s.Unpatchable fault) :
    (∀ s ∈ m.selected markers, ∃ p, s.preamble registry = .ok p)
      ∧ ∀ s ∈ m.selected markers, s.patchedFault? registry
        = if Body.maxCodeSize < s.patchedSize registry
          then some (.codeTooLarge (s.patchedSize registry)) else none := by
  have made : ∀ s ∈ m.selected markers, ∃ p, s.preamble registry = .ok p := fun s mem =>
    Site.exists_preamble (mem_selected.mp mem).2.hasBody (patchable s mem)
  refine ⟨made, fun s mem => ?_⟩
  obtain ⟨p, preamble⟩ := made s mem
  exact Site.patchedFault?_of_settled preamble (settled_of_mem_sites settled (mem_selected.mp mem).1)

/-- **The first method that is too large with its preamble** is why, if all can be patched. -/
theorem result_of_first_tooLarge {front back : List Site} {s : Site}
    (patchable : ∀ s ∈ m.selected markers, ∀ fault, ¬ s.Unpatchable fault)
    (split : m.selected markers = front ++ s :: back)
    (small : ∀ s' ∈ front, s'.patchedSize registry ≤ Body.maxCodeSize)
    (large : Body.maxCodeSize < s.patchedSize registry) :
    (m.instrument markers registry).result
      = .error (s.failure .serialized (.codeTooLarge (s.patchedSize registry))) := by
  have wf : m.WellFormed := fun b mem => (settled b mem).wellFormed
  obtain ⟨made, faults⟩ := preambles_of_patchable settled registry patchable
  obtain ⟨mem, -, -, inFront⟩ := selected_split split
  have encodes : ∀ s' ∈ m.selected markers, s'.Before s → s'.patchedFault? registry = none := by
    intro s' mem' earlier
    rw [faults s' mem', if_neg (Nat.not_lt.mpr (small s' (inFront s' mem' earlier)))]
  have fails : s.patchedFault? registry = some (.codeTooLarge (s.patchedSize registry)) := by
    rw [faults s mem, if_pos large]
  exact (instrument_of_first_serialization unmarked wf made mem encodes fails).1

/-- **Without such a method** the module is instrumented. -/
theorem result_of_patchable (patchable : ∀ s ∈ m.selected markers, ∀ fault, ¬ s.Unpatchable fault)
    (small : ∀ s ∈ m.selected markers, s.patchedSize registry ≤ Body.maxCodeSize) :
    (m.instrument markers registry).result
      = .ok (if m.selected markers = [] then .unchanged
        else .instrumented ((m.selected markers).map Site.name)) := by
  by_cases nonempty : m.selected markers = []
  · rw [if_pos nonempty]
    exact (instrument_of_selected_eq_nil unmarked nonempty).1
  · have wf : m.WellFormed := fun b mem => (settled b mem).wellFormed
    obtain ⟨made, faults⟩ := preambles_of_patchable settled registry patchable
    have encodes : ∀ s ∈ m.selected markers, s.patchedFault? registry = none := by
      intro s mem
      rw [faults s mem, if_neg (Nat.not_lt.mpr (small s mem))]
    rw [if_neg nonempty]
    exact (instrument_of_forall unmarked wf made nonempty encodes).1

/-- **There are no other failures.** -/
theorem exists_of_result_eq_error {failure : Failure}
    (failed : (m.instrument markers registry).result = .error failure) :
    ∃ s ∈ m.selected markers, (∃ fault, failure = s.failure .synthesized fault ∧ s.Unpatchable fault)
      ∨ (failure = s.failure .serialized (.codeTooLarge (s.patchedSize registry))
        ∧ Body.maxCodeSize < s.patchedSize registry) := by
  rcases forall_or_first (fun s => ∀ fault, ¬ s.Unpatchable fault) (m.selected markers) with
    patchable | ⟨front, s, back, split, patchable, fails⟩
  · rcases forall_or_first (fun s => s.patchedSize registry ≤ Body.maxCodeSize)
      (m.selected markers) with small | ⟨front, s, back, split, small, large⟩
    · cases failed.symm.trans (result_of_patchable settled unmarked patchable small)
    · have large := Nat.lt_of_not_le large
      have result := result_of_first_tooLarge settled unmarked patchable split small large
      exact ⟨s, (selected_split split).1, .inr ⟨Except.error.inj (failed.symm.trans result), large⟩⟩
  · simp only [not_forall, not_not] at fails
    obtain ⟨fault, fails⟩ := fails
    have result : (m.instrument markers registry).result = _ :=
      result_of_first_unpatchable settled unmarked split patchable fails
    exact ⟨s, (selected_split split).1, .inl
      ⟨fault, Except.error.inj (failed.symm.trans result), fails⟩⟩

end Settled

/-- **Why a module of files is not instrumented.** If it does not carry the marker of patched modules,
then the first selected method that cannot be patched is why, or if there is none the first one whose
code is too large with its preamble. If there is none of these either it is instrumented, whatever the
registry is. Nothing else makes it fail. And what was instrumented can be written, unless the body of a
method that was not selected is too large. -/
theorem instrument_of_ofFiles (read : ofFiles image symbols? = .ok m) (markers : MarkerNames)
    (registry : PatchRegistry) (unmarked : m.hasMarker markers.injected = false) :
    let selected := m.selected markers
    let done := m.instrument markers registry
    (∀ front s back fault, selected = front ++ s :: back →
        (∀ s' ∈ front, ∀ fault', ¬ s'.Unpatchable fault') → s.Unpatchable fault →
        done.result = .error (s.failure .synthesized fault))
      ∧ ((∀ s ∈ selected, ∀ fault, ¬ s.Unpatchable fault) →
        (∀ front s back, selected = front ++ s :: back →
          (∀ s' ∈ front, s'.patchedSize registry ≤ Body.maxCodeSize) →
          Body.maxCodeSize < s.patchedSize registry →
          done.result = .error (s.failure .serialized (.codeTooLarge (s.patchedSize registry))))
        ∧ ((∀ s ∈ selected, s.patchedSize registry ≤ Body.maxCodeSize) →
          done.result = .ok (if selected = [] then .unchanged
            else .instrumented (selected.map Site.name))))
      ∧ (∀ failure, done.result = .error failure → ∃ s ∈ selected,
        (∃ fault, failure = s.failure .synthesized fault ∧ s.Unpatchable fault)
        ∨ (failure = s.failure .serialized (.codeTooLarge (s.patchedSize registry))
          ∧ Body.maxCodeSize < s.patchedSize registry))
      ∧ ∀ names, done.result = .ok (.instrumented names) →
        (∃ symbols, done.module.writeSymbols = .ok symbols)
        ∧ ((∃ bytes, done.module.write = .ok bytes) ↔ ∀ s ∈ m.sites, s ∉ selected →
          ∀ b, s.method.body? = some b → b.codeSize ≤ Body.maxCodeSize)
        ∧ ∀ fault, done.module.write = .error fault → ∃ s ∈ m.sites, s ∉ selected
          ∧ ∃ b, s.method.body? = some b ∧ Body.maxCodeSize < b.codeSize
            ∧ fault = .codeTooLarge b.codeSize := by
  have settled := settled_of_ofFiles read
  exact ⟨fun _ _ _ _ split patchable fails =>
      result_of_first_unpatchable settled unmarked split patchable fails,
    fun patchable => ⟨fun _ _ _ split small large =>
        result_of_first_tooLarge settled unmarked patchable split small large,
      result_of_patchable settled unmarked patchable⟩,
    fun _ failed => exists_of_result_eq_error settled unmarked failed,
    fun _ done => write_of_instrumented settled done⟩

/-- An image with one type and two methods under different markers; the body of the second is empty. -/
def halfImage : List UInt8 :=
  imageMagic ++ [1, 0] ++ [1, 0, 0, 0, 77] ++ [0, 0, 0, 0] ++ [0, 0, 0, 0]
    ++ [0, 0, 0, 0] ++ [0, 0, 0, 0] ++ [0, 0, 0, 0]
    ++ [1, 0, 0, 0] ++ [0, 0, 0, 0] ++ [1, 0, 0, 0, 84] ++ [0, 0, 0, 0] ++ [0, 0, 0, 0]
    ++ [2, 0, 0, 0] ++ [1, 0, 0, 0, 97] ++ [0, 0] ++ [0, 0, 0, 0] ++ [1]
    ++ [1, 0, 0, 0, 6, 0, 0, 0, 72, 111, 116, 102, 105, 120]
    ++ [1] ++ [0, 0] ++ [0] ++ [0, 0, 0, 0] ++ [1, 0, 0, 0, 42]
    ++ [1, 0, 0, 0, 98] ++ [0, 0] ++ [0, 0, 0, 0] ++ [1] ++ [1, 0, 0, 0, 3, 0, 0, 0, 72, 111, 116]
    ++ [1] ++ [0, 0] ++ [0] ++ [0, 0, 0, 0] ++ [0, 0, 0, 0]

/-- The module it has. -/
def half : Module :=
  { name := "M"
    references := []
    markers := []
    types := [⟨"", "T", ⟨0⟩, [], [
      ⟨"a", ⟨0⟩, [], .builtin .void, ["Hotfix"], some ⟨0, false, [], [], [⟨⟨0⟩, 0, .plain .ret⟩]⟩⟩,
      ⟨"b", ⟨0⟩, [], .builtin .void, ["Hot"], some ⟨0, false, [], [], []⟩⟩]⟩]
    document? := none }

/-- The same image fails under one marker, for its empty body, and can be patched under the other. -/
theorem instrument_of_ofFiles_half : ofFiles halfImage none = .ok half
      ∧ (half.instrument { MarkerNames.standard with instrument := "Hot" } (.standard "R" "R")).result
        = .error (.method "T" "b" .synthesized .emptyBody)
      ∧ (half.instrument .standard (.standard "R" "R")).result = .ok (.instrumented ["T::a"])
      ∧ (∃ bytes, (half.instrument .standard (.standard "R" "R")).module.write = .ok bytes)
      ∧ ∃ symbols, (half.instrument .standard (.standard "R" "R")).module.writeSymbols
        = .ok symbols := by
  have read : ofFiles halfImage none = .ok half := by decide +kernel
  have done : (half.instrument .standard (.standard "R" "R")).result
      = .ok (.instrumented ["T::a"]) := by decide +kernel
  have selected : half.selected { MarkerNames.standard with instrument := "Hot" }
      = [⟨0, 1, half.types[0], half.types[0].methods[1]⟩] := by decide +kernel
  obtain ⟨unpatchable, -⟩ := instrument_of_ofFiles read
    { MarkerNames.standard with instrument := "Hot" } (.standard "R" "R") (by decide)
  have failed := unpatchable [] _ [] .emptyBody selected nofun ⟨_, rfl, .inl ⟨rfl, rfl⟩⟩
  obtain ⟨-, -, -, written⟩ := instrument_of_ofFiles read .standard (.standard "R" "R")
    (by decide)
  obtain ⟨symbols, writable, -⟩ := written _ done
  exact ⟨read, failed, done, writable.mpr (by decide +kernel), symbols⟩

end Module

end Hotpatch
