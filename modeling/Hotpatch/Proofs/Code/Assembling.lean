import Hotpatch.Code.Encoding
import Hotpatch.Proofs.Effects
import Hotpatch.Proofs.Metadata.Interning

/-! # Assembler steps

An assembler step is known by whether it fails, which never depends on the token table, by the
operands it interns, and by what its bytes mean to readers that have a grown table.

* **`Assembler.Decides`** — the fault of a step, if it fails.
* **`Assembler.Assembles`** — the operands of a step, and the meaning of what it gives.
* **`TokenTable.collect`** — the operands of a list. -/

namespace Hotpatch

variable {α β γ : Type}

/-- **Collect** the operands of all members of a list. -/
def TokenTable.collect (operands : α → TokenTable) (xs : List α) : TokenTable :=
  ⟨xs.flatMap fun x => (operands x).strings, xs.flatMap fun x => (operands x).types,
    xs.flatMap fun x => (operands x).methods⟩

/-- Members without operands have none together. -/
@[simp] theorem TokenTable.collect_empty (xs : List α) :
    TokenTable.collect (fun _ => .empty) xs = .empty := by
  induction xs with
  | nil => rfl
  | cons x xs ih => exact ih

/-- The operands of what is made of the members of a list. -/
@[simp] theorem TokenTable.collect_map (operands : β → TokenTable) (g : α → β) (xs : List α) :
    TokenTable.collect operands (xs.map g) = .collect (fun x => operands (g x)) xs := by
  simp only [collect, List.flatMap_map]

namespace Assembler

variable {x : Assembler α} {f : α → Assembler β} {fault? next? : Option Fault}

/-! ## (1) Faults -/

/-- A step **decides** on a fault, or on none, whatever the table. -/
def Decides (x : Assembler α) : Option Fault → Prop
  | none => ∀ t, ∃ value t', x t = .ok (value, t')
  | some fault => ∀ t, x t = .error fault

/-- A value that is only returned is no fault. -/
@[simp] theorem decides_pure (value : α) : (pure value : Assembler α).Decides none :=
  fun t => ⟨value, t, rfl⟩

/-- **In a chain** the fault is that of the first link, or else that of the rest. -/
theorem Decides.bind (first : x.Decides fault?) (rest : ∀ value, (f value).Decides next?) :
    (x >>= f).Decides (fault?.or next?) := by
  cases fault? with
  | some fault => exact fun t => Step.bind_of_error (first t)
  | none =>
    -- The first link gives a value whatever the table is, and what comes then is up to the rest.
    have runs (t : TokenTable) : ∃ value t', (x >>= f) t = f value t' := by
      obtain ⟨value, t', run⟩ := first t
      exact ⟨value, t', Step.bind_of_ok run⟩
    rw [Option.none_or]
    cases next? with
    | some fault =>
      intro t
      obtain ⟨value, t', run⟩ := runs t
      exact run.trans (rest value t')
    | none =>
      intro t
      obtain ⟨value, t', run⟩ := runs t
      rw [run]
      exact rest value t'

/-- What is done to the result changes no fault. -/
theorem Decides.bind_pure (first : x.Decides fault?) (g : α → β) :
    (x >>= fun value => pure (g value)).Decides fault? := by
  have chain := first.bind fun value => decides_pure (g value)
  rwa [Option.or_none] at chain

/-- **In a list** of steps the fault is the first one. -/
theorem Decides.mapM {f : α → Assembler β} {fault? : α → Option Fault} {xs : List α}
    (each : ∀ x ∈ xs, (f x).Decides (fault? x)) : (xs.mapM f).Decides (xs.findSome? fault?) := by
  induction xs with
  | nil => exact decides_pure []
  | cons x xs ih =>
    rw [List.mapM_cons]
    have first := each x List.mem_cons_self
    have rest := ih fun y mem => each y (List.mem_cons_of_mem x mem)
    have chain := first.bind fun value => rest.bind_pure (value :: ·)
    rw [List.findSome?_cons]
    cases here : fault? x with
    | none => rwa [here, Option.none_or] at chain
    | some fault => rwa [here, Option.some_or] at chain

/-- A step that succeeds decided on no fault. -/
theorem Decides.eq_none (decides : x.Decides fault?) {t t' : TokenTable} {value : α}
    (done : x t = .ok (value, t')) : fault? = none := by
  cases fault? with
  | none => rfl
  | some fault => cases (decides t).symm.trans done

/-! ## (2) Operands and meanings -/

/-- A step **assembles** some operands to something with a meaning: whenever it succeeds it has
interned exactly these, and the meaning holds for every table that this table grows into. -/
def Assembles (x : Assembler α) (operands : TokenTable) (means : TokenTable → α → Prop) : Prop :=
  ∀ t value t', x t = .ok (value, t') →
    t' = t.extend operands ∧ ∀ u : TokenTable, t'.Grows u → means u value

variable {operands : TokenTable} {means : TokenTable → α → Prop} {means' : TokenTable → β → Prop}

/-- A value that is only returned interns nothing. -/
theorem assembles_pure {value : α} (holds : ∀ u, means u value) :
    (pure value : Assembler α).Assembles .empty means := by
  intro t other t' done
  obtain ⟨rfl, rfl⟩ := Prod.mk.inj (Except.ok.inj done)
  exact ⟨rfl, fun u _ => holds u⟩

/-- What is done to the result changes only what it means. -/
theorem Assembles.bind_pure (first : x.Assembles operands means) {g : α → β}
    (holds : ∀ u value, means u value → means' u (g value)) :
    (x >>= fun value => pure (g value)).Assembles operands means' := by
  intro t result t' done
  obtain ⟨value, s, run, returned⟩ := Step.bind_eq_ok_iff.mp done
  obtain ⟨rfl, rfl⟩ := Prod.mk.inj (Except.ok.inj returned)
  obtain ⟨table, meant⟩ := first t value s run
  exact ⟨table, fun u grown => holds u value (meant u grown)⟩

/-- A meaning may be weakened. -/
theorem Assembles.imp {weaker : TokenTable → α → Prop} (assembles : x.Assembles operands means)
    (holds : ∀ u value, means u value → weaker u value) : x.Assembles operands weaker :=
  fun t value t' done =>
    have ⟨table, meant⟩ := assembles t value t' done
    ⟨table, fun u grown => holds u value (meant u grown)⟩

/-- **In a list** of steps the operands are interned one after the other, and each result keeps its
meaning while the table grows on. -/
theorem Assembles.mapM {f : α → Assembler β} {operands : α → TokenTable}
    {means : TokenTable → α → β → Prop} {xs : List α}
    (each : ∀ x ∈ xs, (f x).Assembles (operands x) fun u => means u x) :
    (xs.mapM f).Assembles (.collect operands xs) fun u => List.Forall₂ (means u) xs := by
  induction xs with
  | nil => exact assembles_pure fun _ => .nil
  | cons x xs ih =>
    intro t values t' done
    rw [List.mapM_cons] at done
    obtain ⟨value, s, first, rest⟩ := Step.bind_eq_ok_iff.mp done
    obtain ⟨others, s', run, returned⟩ := Step.bind_eq_ok_iff.mp rest
    obtain ⟨rfl, rfl⟩ := Prod.mk.inj (Except.ok.inj returned)
    obtain ⟨rfl, here⟩ := each x List.mem_cons_self t value s first
    obtain ⟨rfl, there⟩ := ih (fun y mem => each y (List.mem_cons_of_mem x mem)) _ others s' run
    -- The operands of the first member are interned in front of all others.
    have table : (t.extend (operands x)).extend (.collect operands xs)
        = t.extend (.collect operands (x :: xs)) := by
      rw [← TokenTable.extend_append]
      rfl
    refine ⟨table, fun u grown => .cons (here u ?_) (there u grown)⟩
    exact (TokenTable.grows_extend _ _).trans grown

end Assembler

end Hotpatch
