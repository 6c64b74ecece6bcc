import Hotpatch.Code.Instruction
import Hotpatch.Proofs.Effects

/-! # Labels of instructions

Changing the labels of an instruction touches its targets and nothing else.

* **`targets_relabel`** — what becomes of the targets; **`width_relabel`**, **`effect_relabel`** and others say
  what does not change.
* **`relabel_relabel`**, **`relabel_congr`**, **`relabel_id`** — relabelling is functorial, and only
  the labels that occur matter.
* **`Instruction.erase`**, **`eq_of_erase_eq`** — all that is not a label.
* **`map_mapLabels`** — mapping labels with any effects is mapping the list of targets.
* **`mapLabels_of_forall`**, **`exists_of_mapLabels`** — an attempt on the labels succeeds when it
  does on each target; **`error?_mapLabels`** — else it fails as it does on the first where it fails. -/

namespace Hotpatch.Instruction

variable {L L' L'' ε : Type}

/-! ## (1) Relabelling -/

/-- A branch goes to the new label of its target. -/
@[simp] theorem relabel_branch (f : L → L') (reach : Reach) (condition : Condition) (target : L) :
    (branch reach condition target).relabel f = branch reach condition (f target) := rfl

/-- A table of targets is relabelled target by target. -/
@[simp] theorem relabel_switch (f : L → L') (targets : List L) :
    (switch targets).relabel f = switch (targets.map f) := by
  show switch (targets.mapM fun label => (pure (f label) : Id L')).run = _
  rw [List.idRun_mapM]
  rfl

/-- The targets of a relabelled instruction are the new labels. -/
@[simp] theorem targets_relabel (f : L → L') (i : Instruction L) :
    (i.relabel f).targets = i.targets.map f := by
  cases i with
  | switch targets => rw [relabel_switch, Instruction.targets, Instruction.targets]
  | _ => rfl

/-- The width does not depend on the labels. -/
@[simp] theorem width_relabel (f : L → L') (i : Instruction L) : (i.relabel f).width = i.width := by
  cases i with
  | switch targets => rw [relabel_switch, width, width, List.length_map]
  | branch reach condition target => cases reach <;> rfl
  | _ => rfl

/-- Nor does the effect on the stack. -/
@[simp] theorem effect_relabel (f : L → L') (i : Instruction L) : (i.relabel f).effect = i.effect := by
  cases i <;> rfl

/-- Nor does whether the next instruction may come after it. -/
@[simp] theorem fallsThrough_relabel (f : L → L') (i : Instruction L) :
    (i.relabel f).fallsThrough = i.fallsThrough := by
  cases i with
  | plain op => cases op <;> rfl
  | branch reach condition target => cases condition <;> rfl
  | _ => rfl

/-- Nor does the mnemonic. -/
@[simp]
theorem mnemonic_relabel (f : L → L') (i : Instruction L) : (i.relabel f).mnemonic = i.mnemonic := by
  cases i <;> rfl

/-- Relabelling twice is relabelling once. -/
@[simp] theorem relabel_relabel (f : L → L') (g : L' → L'') (i : Instruction L) :
    (i.relabel f).relabel g = i.relabel fun label => g (f label) := by
  cases i with
  | switch targets => simp only [relabel_switch, List.map_map, Function.comp_def]
  | _ => rfl

/-- **Only the labels that occur matter** for relabelling. -/
theorem relabel_congr {f g : L → L'} {i : Instruction L}
    (same : ∀ target ∈ i.targets, f target = g target) : i.relabel f = i.relabel g := by
  cases i with
  | switch targets =>
    have all : targets.map f = targets.map g := List.map_congr_left same
    rw [relabel_switch, relabel_switch, all]
  | branch reach condition target =>
    rw [relabel_branch, relabel_branch, same target List.mem_cons_self]
  | _ => rfl

/-- Relabelling by nothing new leaves an instruction as it is. -/
@[simp] theorem relabel_id (i : Instruction L) : i.relabel id = i := by
  cases i with
  | switch targets => rw [relabel_switch, List.map_id]
  | _ => rfl

/-- An instruction keeps its labels if each target keeps its own. -/
theorem relabel_eq_self {f : L → L} {i : Instruction L}
    (same : ∀ target ∈ i.targets, f target = target) : i.relabel f = i :=
  (relabel_congr same).trans (relabel_id i)

/-! ## (2) What is not a label -/

/-- An instruction with its labels **erased**: nothing is left of them but how many there are. -/
def erase (i : Instruction L) : Instruction Unit :=
  i.relabel fun _ => ()

/-- **What labels make no difference to** is the same in instructions that differ in their labels alone. -/
theorem eq_of_erase_eq {α : Type} {q : {L : Type} → Instruction L → α}
    (blind : ∀ {L L' : Type} (f : L → L') (i : Instruction L), q (i.relabel f) = q i)
    {i : Instruction L} {j : Instruction L'} (same : j.erase = i.erase) : q j = q i := by
  rw [← blind (fun _ => ()) j, ← blind (fun _ => ()) i]
  exact congrArg q same

/-- A list that is mapped with any effects stays as long as it is. -/
theorem map_mapM_erased {m : Type → Type} [Monad m] [LawfulMonad m] (f : L → m L') (labels : List L) :
    (fun labels' => (labels', labels'.map fun _ => ())) <$> labels.mapM f
      = (fun labels' => (labels', labels.map fun _ => ())) <$> labels.mapM f := by
  induction labels with
  | nil =>
    rw [List.mapM_nil, map_pure, map_pure]
    rfl
  | cons label rest ih =>
    rw [List.mapM_cons, map_bind, map_bind]
    refine congrArg (f label >>= ·) (funext fun label' => ?_)
    have behind := congrArg (Functor.map fun p : List L' × List Unit => (label' :: p.1, () :: p.2)) ih
    simp only [Functor.map_map, bind_pure_comp] at behind ⊢
    exact behind

/-- **Mapping labels** has the effects of mapping the list of targets, whatever these are. It gives the same targets,
and changes nothing else. -/
theorem map_mapLabels {m : Type → Type} [Monad m] [LawfulMonad m] (f : L → m L') (i : Instruction L) :
    (fun j => (j.targets, j.erase)) <$> i.mapLabels f = (fun labels => (labels, i.erase)) <$> i.targets.mapM f := by
  cases i with
  | switch targets =>
    have lists := congrArg (Functor.map fun p : List L' × List Unit => (p.1, switch p.2)) (map_mapM_erased f targets)
    simp only [Functor.map_map] at lists
    show _ <$> (switch <$> targets.mapM f) = _
    simp only [Functor.map_map, erase, relabel_switch]
    exact lists
  | branch reach condition target =>
    show _ <$> (branch reach condition <$> f target) = _ <$> [target].mapM f
    simp only [List.mapM_cons, List.mapM_nil, map_pure, bind_pure_comp, Functor.map_map]
    rfl
  | _ =>
    show _ <$> pure _ = _ <$> List.mapM f []
    rw [List.mapM_nil, map_pure, map_pure]
    rfl

/-! ## (3) Attempts on labels -/

variable {f : L → Except ε L'} {i : Instruction L} {j : Instruction L'}

/-- **An attempt that succeeds on each target** relabels the instruction. -/
theorem mapLabels_of_forall {g : L → L'} (each : ∀ target ∈ i.targets, f target = .ok (g target)) :
    i.mapLabels f = .ok (i.relabel g) := by
  cases i with
  | switch targets =>
    rw [relabel_switch]
    exact Attempt.map_eq_ok_iff.mpr ⟨_, Attempt.mapM_of_forall each, rfl⟩
  | branch reach condition target =>
    exact Attempt.map_eq_ok_iff.mpr ⟨_, each target List.mem_cons_self, rfl⟩
  | _ => rfl

/-- An attempt on a relabelled instruction is one on the labels it had before. -/
theorem mapLabels_relabel_of_forall {L'' : Type} {h : L'' → L} {g : L'' → L'} {i : Instruction L''}
    (each : ∀ target ∈ i.targets, f (h target) = .ok (g target)) :
    (i.relabel h).mapLabels f = .ok (i.relabel g) := by
  cases i with
  | switch targets =>
    rw [relabel_switch, relabel_switch]
    refine Attempt.map_eq_ok_iff.mpr ⟨_, Attempt.mapM_eq_ok_iff.mpr ?_, rfl⟩
    rw [List.forall₂_map_left_iff, List.forall₂_map_right_iff, List.forall₂_same]
    exact each
  | branch reach condition target =>
    exact Attempt.map_eq_ok_iff.mpr ⟨_, each target List.mem_cons_self, rfl⟩
  | _ => rfl

/-- **The error of an attempt on an instruction** is that of the first target on which it fails. -/
theorem error?_mapLabels (f : L → Except ε L') (i : Instruction L) :
    Attempt.error? (i.mapLabels f) = i.targets.findSome? fun target => Attempt.error? (f target) := by
  cases i with
  | switch targets => exact (Attempt.error?_map _ _).trans (Attempt.error?_mapM f targets)
  | branch reach condition target =>
    refine (Attempt.error?_map _ _).trans ?_
    rw [targets, List.findSome?_singleton]
  | _ => rfl

/-- **An attempt on an instruction** succeeds only if it does on each target. -/
theorem exists_of_mapLabels (done : i.mapLabels f = .ok j) :
    ∀ target ∈ i.targets, ∃ label, f target = .ok label := by
  intro target mem
  have whole := error?_mapLabels f i
  rw [Attempt.error?_eq_none_iff.mpr ⟨j, done⟩] at whole
  exact Attempt.error?_eq_none_iff.mp (List.findSome?_eq_none_iff.mp whole.symm target mem)

/-- **What an attempt gives** that succeeds: the targets are what it gives for each, and the rest is as before. -/
theorem targets_of_mapLabels (done : i.mapLabels f = .ok j) :
    i.targets.mapM f = .ok j.targets ∧ j.erase = i.erase := by
  have law := map_mapLabels f i
  rw [done] at law
  obtain ⟨labels, each, same⟩ := Attempt.map_eq_ok_iff.mp law.symm
  obtain ⟨rfl, erased⟩ := Prod.mk.inj same
  exact ⟨each, erased.symm⟩

end Hotpatch.Instruction
