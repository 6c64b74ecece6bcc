import Hotpatch.Proofs.Code.Arena
import Hotpatch.Proofs.Effects
import Mathlib.Data.List.InsertIdx
import Mathlib.Data.List.Perm.Basic

/-! # Instructions put in

What a body is like after an instruction was put into it, at the end or beside another one.

* **`Body.checkTargets_eq_ok_iff`**, **`Body.checkTargets_eq_error_iff`** — which instructions may be
  put in, and which target is the fault otherwise.
* **`Body.place_of_append`** — the new instruction between the ones in front of it and those behind.
* **`Body.position?_of_append`** — a look-up ends at the first instruction with the handle.
* **`Body.Placing`** — an attempt that places the instruction if it succeeds, as each way to add one does.
* **`WellFormed.of_placing`** — well-formed bodies stay well formed. -/

namespace Hotpatch.Body

variable {b c : Body} {i : Instruction Handle} {count : Nat} {handle anchor : Handle}

/-! ## (1) Targets -/

/-- **An instruction passes** if all its targets are below `count`. -/
@[simp, grind =] theorem checkTargets_eq_ok_iff :
    checkTargets count i = .ok () ↔ ∀ target ∈ i.targets, target.index < count := by
  unfold checkTargets
  split
  · next target found =>
    have large := List.find?_some found
    constructor
    · intro passes
      cases passes
    · intro below
      have small := below target (List.mem_of_find?_eq_some found)
      simp only [decide_eq_true_eq] at large
      omega
  · next none =>
    simp only [List.find?_eq_none, decide_eq_true_eq, Nat.not_le] at none
    simpa using none

/-- **An instruction is refused** for its first target that is not below `count`. -/
theorem checkTargets_eq_error_iff {fault : Fault} :
    checkTargets count i = .error fault
      ↔ ∃ target, i.targets.find? (fun target => count ≤ target.index) = some target
        ∧ fault = .danglingTarget target := by
  unfold checkTargets
  split
  · next target found => simp [found, eq_comm]
  · next none => simp [none]

/-! ## (2) Places -/

/-- A member that is inserted behind a front stands between it and the rest. -/
@[simp] theorem insertIdx_length_append {α : Type} (front behind : List α) (x : α) :
    (front ++ behind).insertIdx front.length x = front ++ x :: behind := by
  induction front with
  | nil => rfl
  | cons y front ih => rw [List.cons_append, List.length_cons, List.insertIdx_succ_cons, ih]; rfl

/-- **The code after placing**: the new instruction stands between those in front of the position and
those behind. -/
theorem place_of_append {front behind : List Placed} (code : b.code = front ++ behind) :
    b.place front.length i = (⟨b.code.length⟩,
      { b with code := front ++ ⟨⟨b.code.length⟩, 0, i⟩ :: behind }) := by
  unfold place
  simp only [code, insertIdx_length_append]

/-- **The new handle** is that of a position, unless handles have run out. -/
theorem place_fst (short : b.code.length < 4294967296) (position : Nat) :
    (b.place position i).1 = .ofPosition b.code.length :=
  (Handle.ofPosition_of_lt short).symm

/-- **A handle is found where it stands first.** -/
theorem position?_of_append {front behind : List Placed} {placed : Placed}
    (code : b.code = front ++ placed :: behind) (first : ∀ other ∈ front, other.handle ≠ placed.handle) :
    b.position? placed.handle = some front.length := by
  unfold position?
  have absent : front.findIdx? (·.handle == placed.handle) = none := by
    rw [List.findIdx?_eq_none_iff]
    intro other mem
    simpa using first other mem
  rw [code, List.findIdx?_append, absent, List.findIdx?_cons]
  simp

/-- Positions that are found are positions of the layout. -/
theorem lt_of_position? {position : Nat} (found : b.position? anchor = some position) :
    position < b.code.length := by
  unfold position? at found
  exact (List.findIdx?_eq_some_iff_getElem.mp found).1

/-- An attempt to add an instruction is **placing** it if it succeeds only by that, at some position, and with
targets that are there. -/
def Placing (b : Body) (i : Instruction Handle) (added : Except Fault (Handle × Body)) : Prop :=
  ∀ handle c, added = .ok (handle, c) → ∃ position, position ≤ b.code.length
    ∧ (∀ target ∈ i.targets, target.index < b.code.length) ∧ b.place position i = (handle, c)

/-- **A push** places the instruction behind the others. -/
theorem placing_push (b : Body) (i : Instruction Handle) : b.Placing i (b.push i) := by
  intro handle c pushed
  obtain ⟨⟨⟩, passes, rest⟩ := Attempt.bind_eq_ok_iff.mp pushed
  exact ⟨_, Nat.le_refl _, checkTargets_eq_ok_iff.mp passes, Except.ok.inj rest⟩

/-- **An insertion before** an instruction places the new one where the other stands. -/
theorem placing_insertBefore (b : Body) (anchor : Handle) (i : Instruction Handle) :
    b.Placing i (b.insertBefore anchor i) := by
  intro handle c inserted
  unfold insertBefore at inserted
  split at inserted
  · cases inserted
  · next position found =>
    obtain ⟨⟨⟩, passes, rest⟩ := Attempt.bind_eq_ok_iff.mp inserted
    exact ⟨position, (lt_of_position? found).le, checkTargets_eq_ok_iff.mp passes, Except.ok.inj rest⟩

/-- **An insertion after** an instruction places the new one right behind it. -/
theorem placing_insertAfter (b : Body) (anchor : Handle) (i : Instruction Handle) :
    b.Placing i (b.insertAfter anchor i) := by
  intro handle c inserted
  unfold insertAfter at inserted
  split at inserted
  · cases inserted
  · next position found =>
    obtain ⟨⟨⟩, passes, rest⟩ := Attempt.bind_eq_ok_iff.mp inserted
    exact ⟨position + 1, lt_of_position? found, checkTargets_eq_ok_iff.mp passes, Except.ok.inj rest⟩

/-! ## (3) Well-formed bodies -/

/-- **Placing keeps a body well formed**: the new handle is the one number that was missing. -/
theorem WellFormed.place (wf : b.WellFormed) {position : Nat} (bound : position ≤ b.code.length)
    (below : ∀ target ∈ i.targets, target.index < b.code.length) :
    (b.place position i).2.WellFormed := by
  have length : (b.place position i).2.code.length = b.code.length + 1 :=
    List.length_insertIdx_of_le_length bound _
  refine ⟨?_, ?_⟩
  · rw [length, List.range_succ]
    have moved : ((b.place position i).2.code.map (·.handle.index)).Perm
        (b.code.length :: b.code.map (·.handle.index)) :=
      (List.perm_insertIdx _ _ bound).map (fun placed : Placed => placed.handle.index)
    apply moved.trans
    apply (wf.handles.cons _).trans
    exact (List.perm_append_singleton _ _).symm
  · intro placed mem target hit
    rw [length]
    apply Nat.lt_succ_of_lt
    rcases (List.mem_insertIdx bound).mp mem with new | old
    · subst new
      exact below target hit
    · exact wf.targets placed old target hit

/-- **What is placed keeps a body well formed.** -/
theorem WellFormed.of_placing (wf : b.WellFormed) {added : Except Fault (Handle × Body)}
    (placing : b.Placing i added) (done : added = .ok (handle, c)) : c.WellFormed := by
  obtain ⟨position, bound, below, placed⟩ := placing handle c done
  have whole := wf.place bound below
  rwa [placed] at whole

/-- **Inserting before** an instruction keeps a body well formed. -/
theorem WellFormed.insertBefore (wf : b.WellFormed) (inserted : b.insertBefore anchor i = .ok (handle, c)) :
    c.WellFormed :=
  wf.of_placing (placing_insertBefore b anchor i) inserted

/-- **Inserting after** an instruction keeps a body well formed. -/
theorem WellFormed.insertAfter (wf : b.WellFormed) (inserted : b.insertAfter anchor i = .ok (handle, c)) :
    c.WellFormed :=
  wf.of_placing (placing_insertAfter b anchor i) inserted

end Hotpatch.Body
