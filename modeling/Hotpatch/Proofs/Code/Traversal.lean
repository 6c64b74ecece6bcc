import Hotpatch.Proofs.Code.DecodeBack

/-! # Traversing labels

The labels of an instruction are visited from the first one on, up to one that cannot be mapped. If there is none,
they are what changes, and nothing else is.

* **`Instruction.noting`** — a function of labels that notes on which ones it is called.
* **`Instruction.calls`**, **`run_mapLabels_noting`** — these are all up to the first one on which it fails.
* **`mapLabels_eq_error_iff`** — the error is that of this one.
* **`Body.emitted_of_encode`** — displacements are counted from where the bytes of the branch end.
* **`mapLabels_lawful`** — mapping labels is a lawful traversal. -/

namespace Hotpatch

namespace Instruction

variable {L L' ε : Type} {f : L → Except ε L'}

/-! ## (1) Calls -/

/-- A function that **notes** behind earlier labels the one on which it is called, and does what another one does. -/
def noting (f : L → Except ε L') (label : L) : ExceptT ε (StateM (List L)) L' :=
  ExceptT.mk fun called => (f label, called ++ [label])

/-- A call is noted whether it fails or not. -/
@[simp] theorem run_noting (f : L → Except ε L') (label : L) (called : List L) :
    (noting f label).run.run called = (f label, called ++ [label]) := rfl

/-- The **calls** of a function on labels, one after the other until it fails. -/
def calls (f : L → Except ε L') : List L → List L
  | [] => []
  | label :: rest =>
    label :: match f label with
      | .ok _ => calls f rest
      | .error _ => []

/-- It is called on all labels on which it does not fail, and then on those behind them. -/
theorem calls_append {labels : List L} (each : ∀ label ∈ labels, ∃ label', f label = .ok label') (rest : List L) :
    calls f (labels ++ rest) = labels ++ calls f rest := by
  induction labels with
  | nil => rfl
  | cons label labels ih =>
    obtain ⟨⟨label', first⟩, others⟩ := List.forall_mem_cons.mp each
    rw [List.cons_append, calls, first, List.cons_append, ih others]

/-- **Mapping a list** makes these calls. -/
@[simp] theorem run_mapM_noting (f : L → Except ε L') (labels called : List L) :
    (labels.mapM (noting f)).run.run called = (labels.mapM f, called ++ calls f labels) := by
  induction labels generalizing called with
  | nil =>
    rw [calls, List.append_nil]
    rfl
  | cons label rest ih =>
    have noted := run_noting f label called
    rw [List.mapM_cons, List.mapM_cons, calls]
    cases outcome : f label with
    | error e =>
      rw [outcome] at noted
      exact Action.bind_of_error noted
    | ok label' =>
      rw [outcome] at noted
      rw [Action.bind_of_ok noted, Action.bind_run, ih, List.append_assoc, List.singleton_append]
      cases rest.mapM f <;> rfl

/-- **Mapping the labels of an instruction** makes these calls. -/
@[simp] theorem run_mapLabels_noting (f : L → Except ε L') (i : Instruction L) (called : List L) :
    (i.mapLabels (noting f)).run.run called = (i.mapLabels f, called ++ calls f i.targets) := by
  cases i with
  | switch targets =>
    show (switch <$> targets.mapM (noting f)).run.run called = _
    rw [ExceptT.run_map, StateT.run_map, run_mapM_noting]
    rfl
  | branch reach condition target =>
    show (branch reach condition <$> noting f target).run.run called
      = (branch reach condition <$> f target, called ++ calls f [target])
    rw [ExceptT.run_map, StateT.run_map, run_noting, calls]
    cases f target <;> rfl
  | _ => exact congrArg _ (List.append_nil called).symm

/-! ## (2) Outcomes -/

variable {i : Instruction L} {j : Instruction L'}

/-- **Mapping labels fails** as the function does on the first target on which it fails. -/
theorem mapLabels_eq_error_iff {e : ε} : i.mapLabels f = .error e ↔ ∃ before label after,
    i.targets = before ++ label :: after ∧ (∀ earlier ∈ before, ∃ label', f earlier = .ok label')
      ∧ f label = .error e := by
  rw [← Attempt.error?_eq_some_iff, error?_mapLabels, List.findSome?_eq_some_iff]
  refine exists_congr fun before => exists_congr fun label => exists_congr fun after => and_congr_right fun _ => ?_
  rw [Attempt.error?_eq_some_iff, and_comm]
  exact and_congr_left fun _ => forall₂_congr fun _ _ => Attempt.error?_eq_none_iff

/-- **Mapping labels fails at all** if the function fails on some target. -/
theorem exists_mapLabels_eq_error_iff :
    (∃ e, i.mapLabels f = .error e) ↔ ∃ label ∈ i.targets, ∃ e, f label = .error e := by
  constructor
  · rintro ⟨e, failed⟩
    obtain ⟨before, label, after, whole, -, fails⟩ := mapLabels_eq_error_iff.mp failed
    exact ⟨label, whole ▸ List.mem_append_cons_self, e, fails⟩
  · rintro ⟨label, mem, e, fails⟩
    cases outcome : i.mapLabels f with
    | error e' => exact ⟨e', rfl⟩
    | ok j =>
      obtain ⟨label', succeeds⟩ := exists_of_mapLabels outcome label mem
      cases fails.symm.trans succeeds

/-- **Mapping labels by a function that does not fail** relabels the instruction. -/
@[simp] theorem mapLabels_ok (g : L → L') (i : Instruction L) :
    i.mapLabels (fun label => (.ok (g label) : Except ε L')) = .ok (i.relabel g) :=
  mapLabels_of_forall fun _ _ => rfl

end Instruction

/-! ## (3) Displacements -/

namespace Body

variable {b : Body} {t t' : TokenTable} {code : List UInt8}

/-- As many bytes are emitted for an instruction as its width says. -/
theorem Emitted.length_eq {offsets : Array (Option Nat)} {placed : Placed} {bytes : List UInt8}
    (emitted : Emitted offsets placed bytes) : bytes.length = placed.instruction.width := by
  obtain ⟨_, _, _, -, -, width, length⟩ := emitted
  rw [length, width]

/-- **What is emitted for an instruction** of a body stands in the code from its offset on, and takes up its width.
-/
theorem emitted_of_encode (done : b.encode t = .ok (code, t')) {position : Nat} {placed : Placed}
    (here : b.code[position]? = some placed) :
    Emitted b.offsets placed ((code.drop placed.offset).take placed.instruction.width) := by
  obtain ⟨-, emitted⟩ := emits_encode b t code t' done
  obtain ⟨current, -, chunks, rfl, each⟩ := emitted t' (.refl t')
  obtain ⟨bytes, there, whole⟩ := exists_of_forall₂ each here
  rwa [slice_of_widths current (each.imp fun _ _ chunk => chunk.length_eq) here there]

end Body

namespace Instruction

/-- **Mapping labels is a lawful traversal.** It fails if the function fails on some target, with the error of the
first one; it is called on none behind this one. If mapping succeeds, the targets are what the function gives for
each of them, in order, and nothing else has changed. With any effects it does what mapping the list of targets does.
Mapping by the identity and by a composition of functions is as expected. So a displacement of encoded code is
counted from where the bytes of its instruction end. -/
theorem mapLabels_lawful :
    (∀ (L L' ε : Type) (i : Instruction L) (f : L → Except ε L'),
      ((∃ e, i.mapLabels f = .error e) ↔ ∃ label ∈ i.targets, ∃ e, f label = .error e)
      ∧ (∀ e, i.mapLabels f = .error e → ∃ before label after, i.targets = before ++ label :: after
        ∧ (∀ earlier ∈ before, ∃ label', f earlier = .ok label') ∧ f label = .error e
        ∧ (i.mapLabels (noting f)).run.run [] = (.error e, before ++ [label]))
      ∧ ∀ j, i.mapLabels f = .ok j →
        List.Forall₂ (fun label label' => f label = .ok label') i.targets j.targets
        ∧ j.erase = i.erase ∧ j.width = i.width ∧ j.effect = i.effect ∧ j.fallsThrough = i.fallsThrough
        ∧ j.mnemonic = i.mnemonic ∧ (i.mapLabels (noting f)).run.run [] = (.ok j, i.targets))
    ∧ (∀ (m : Type → Type) [Monad m] [LawfulMonad m] (L L' : Type) (i : Instruction L) (f : L → m L'),
      (fun j => (j.targets, j.erase)) <$> i.mapLabels f
        = (fun labels => (labels, i.erase)) <$> i.targets.mapM f)
    ∧ (∀ (L ε : Type) (i : Instruction L), i.mapLabels (fun label => (.ok label : Except ε L)) = .ok i)
    ∧ (∀ (L L' L'' ε : Type) (i : Instruction L) (g : L → L') (h : L' → L''),
      (i.mapLabels (fun label => (.ok (g label) : Except ε L')) >>= fun j =>
          j.mapLabels fun label => .ok (h label))
        = i.mapLabels fun label => .ok (h (g label)))
    ∧ ∀ (b : Body) (t t' : TokenTable) (code : List UInt8), b.encode t = .ok (code, t') →
      ∀ (position : Nat) (placed : Placed), b.code[position]? = some placed →
        Body.Emitted b.offsets placed ((code.drop placed.offset).take placed.instruction.width) := by
  refine ⟨fun L L' ε i f => ⟨exists_mapLabels_eq_error_iff, fun e failed => ?_, fun j done => ?_⟩,
    fun m _ _ L L' i f => map_mapLabels f i, fun L ε i => ?_, fun L L' L'' ε i g h => ?_,
    fun b t t' code done position placed => Body.emitted_of_encode done⟩
  · obtain ⟨before, label, after, whole, each, fails⟩ := mapLabels_eq_error_iff.mp failed
    refine ⟨before, label, after, whole, each, fails, ?_⟩
    rw [run_mapLabels_noting, failed, whole, calls_append each, calls, fails, List.nil_append]
  · obtain ⟨each, erased⟩ := targets_of_mapLabels done
    refine ⟨Attempt.mapM_eq_ok_iff.mp each, erased, eq_of_erase_eq width_relabel erased,
      eq_of_erase_eq effect_relabel erased, eq_of_erase_eq fallsThrough_relabel erased,
      eq_of_erase_eq mnemonic_relabel erased, ?_⟩
    have all := calls_append (exists_of_mapLabels done) []
    rw [run_mapLabels_noting, done, ← List.append_nil i.targets, all, calls, List.append_nil, List.nil_append]
  · exact (mapLabels_ok id i).trans (congrArg _ (relabel_id i))
  · rw [Attempt.bind_of_ok (mapLabels_ok g i), mapLabels_ok, relabel_relabel]
    exact (mapLabels_ok (fun label => h (g label)) i).symm

/-- A function that fails on four. -/
def avoidFour (label : Nat) : Except String Int :=
  if label = 4 then .error "four" else .ok (label + 10)

/-- A short branch over a string to a return. -/
def hop : Body :=
  { Body.empty with
    code := [⟨⟨0⟩, 0, branch .short .isFalse ⟨2⟩⟩, ⟨⟨1⟩, 2, ldstr "a"⟩, ⟨⟨2⟩, 7, plain .ret⟩] }

/-- A table of three labels fails on the second one, a table without that one is mapped, and the branch is emitted
in the two bytes of its width. -/
theorem mapLabels_lawful_table :
    (switch [1, 4, 9]).mapLabels avoidFour = .error "four"
    ∧ (∃ before label after, [1, 4, 9] = before ++ label :: after
      ∧ (∀ earlier ∈ before, ∃ label', avoidFour earlier = .ok label') ∧ avoidFour label = .error "four"
      ∧ ((switch [1, 4, 9]).mapLabels (noting avoidFour)).run.run [] = (.error "four", before ++ [label]))
    ∧ ((switch [1, 9]).mapLabels (noting avoidFour)).run.run [] = (.ok (switch [11, 19]), [1, 9])
    ∧ (∃ code t', hop.encode .empty = .ok (code, t')
      ∧ Body.Emitted hop.offsets ⟨⟨0⟩, 0, branch .short .isFalse ⟨2⟩⟩ (code.take 2)) := by
  obtain ⟨attempts, -, -, -, emitted⟩ := mapLabels_lawful
  obtain ⟨-, failing, -⟩ := attempts Nat Int String (switch [1, 4, 9]) avoidFour
  obtain ⟨-, -, succeeding⟩ := attempts Nat Int String (switch [1, 9]) avoidFour
  obtain ⟨-, -, -, -, -, -, noted⟩ := succeeding (switch [11, 19]) rfl
  exact ⟨rfl, failing "four" rfl, noted, _, _, rfl, emitted hop .empty _ _ rfl 0 _ rfl⟩

end Instruction

end Hotpatch
