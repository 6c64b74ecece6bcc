import Hotpatch.Journal
import Mathlib.Data.List.Forall2

/-! # Attempts and steps

How the success of a chain of operations that may fail comes apart into the successes of its links,
and the first failure of a list is found.

* **`findSome?_flatMap`**, **`findSome?_congr`**, **`forall_or_first`** — the first that is found in a
  list.
* **`Attempt`** — operations in `Except`.
* **`Step`** — operations in `StateT` over `Except`, as readers and assemblers are.
* **`Action`** — operations in `ExceptT` over `StateM`, as those on files are.
* **`Journal.recordAll_eq_pure`** — a journal of which nothing is kept. -/

namespace Hotpatch

variable {ε σ α β : Type}

/-- A list that is determined member by member, under a condition on each. -/
theorem forall₂_iff_map {R : α → β → Prop} {P : α → Prop} {g : α → β} {xs : List α} {ys : List β}
    (each : ∀ x ∈ xs, ∀ y, R x y ↔ P x ∧ y = g x) :
    List.Forall₂ R xs ys ↔ (∀ x ∈ xs, P x) ∧ ys = xs.map g := by
  induction xs generalizing ys with
  | nil => simp
  | cons x xs ih =>
    have first := each x List.mem_cons_self
    have others {ys : List β} := @ih ys fun x' mem => each x' (List.mem_cons_of_mem x mem)
    rw [List.forall₂_cons_left_iff, List.forall_mem_cons, List.map_cons]
    constructor
    · rintro ⟨y, tail, here, rest, rfl⟩
      obtain ⟨holds, rfl⟩ := (first y).mp here
      obtain ⟨hold, rfl⟩ := others.mp rest
      exact ⟨⟨holds, hold⟩, rfl⟩
    · rintro ⟨⟨holds, hold⟩, rfl⟩
      exact ⟨g x, xs.map g, (first _).mpr ⟨holds, rfl⟩, others.mpr ⟨hold, rfl⟩, rfl⟩

/-- In related lists, there is something related at the same position. -/
theorem exists_of_forall₂ {R : α → β → Prop} {xs : List α} {ys : List β} (each : List.Forall₂ R xs ys)
    {position : Nat} {x : α} (here : xs[position]? = some x) : ∃ y, ys[position]? = some y ∧ R x y := by
  obtain ⟨length, related⟩ := List.forall₂_iff_get.mp each
  obtain ⟨bound, rfl⟩ := List.getElem?_eq_some_iff.mp here
  exact ⟨_, List.getElem?_eq_getElem (length ▸ bound), related position bound (length ▸ bound)⟩

/-- Related lists are related at each position, or both end before it. -/
theorem rel_of_forall₂ {R : α → β → Prop} {xs : List α} {ys : List β} (each : List.Forall₂ R xs ys)
    (position : Nat) : Option.Rel R xs[position]? ys[position]? := by
  cases here : xs[position]? with
  | none =>
    rw [List.getElem?_eq_none (each.length_eq ▸ List.getElem?_eq_none_iff.mp here)]
    exact .none
  | some x =>
    obtain ⟨y, there, related⟩ := exists_of_forall₂ each here
    rw [there]
    exact .some related

/-- If all members of a list are related to something, the list is related to a list. -/
theorem exists_forall₂ {R : α → β → Prop} {xs : List α} (each : ∀ x ∈ xs, ∃ y, R x y) :
    ∃ ys, List.Forall₂ R xs ys := by
  induction xs with
  | nil => exact ⟨[], .nil⟩
  | cons x xs ih =>
    obtain ⟨⟨y, first⟩, others⟩ := List.forall_mem_cons.mp each
    obtain ⟨ys, rest⟩ := ih others
    exact ⟨y :: ys, .cons first rest⟩

/-- Searching a list of lists is searching each of them. -/
theorem findSome?_flatMap {γ : Type} (f : β → Option γ) (g : α → List β) (xs : List α) :
    (xs.flatMap g).findSome? f = xs.findSome? fun x => (g x).findSome? f := by
  induction xs with
  | nil => rfl
  | cons x xs ih =>
    rw [List.flatMap_cons, List.findSome?_append, ih, List.findSome?_cons]
    cases (g x).findSome? f <;> rfl

/-- Two searches are the same if they find the same in each member. -/
theorem findSome?_congr {f g : α → Option β} {xs : List α} (same : ∀ x ∈ xs, f x = g x) :
    xs.findSome? f = xs.findSome? g := by
  induction xs with
  | nil => rfl
  | cons x xs ih =>
    have others := ih fun y mem => same y (List.mem_cons_of_mem x mem)
    rw [List.findSome?_cons, List.findSome?_cons, same x List.mem_cons_self, others]

/-- All members of a list have a property, or there is a first one without. -/
theorem forall_or_first (P : α → Prop) (xs : List α) :
    (∀ x ∈ xs, P x) ∨ ∃ front x back, xs = front ++ x :: back ∧ (∀ y ∈ front, P y) ∧ ¬ P x := by
  induction xs with
  | nil => exact .inl nofun
  | cons x xs ih =>
    by_cases here : P x
    · rcases ih with all | ⟨front, y, back, rfl, before, fails⟩
      · exact .inl (List.forall_mem_cons.mpr ⟨here, all⟩)
      · exact .inr ⟨x :: front, y, back, rfl, List.forall_mem_cons.mpr ⟨here, before⟩, fails⟩
    · exact .inr ⟨[], x, xs, rfl, nofun, here⟩

namespace Attempt

/-- A chain succeeds when its first link does and the rest does on what that gives. -/
@[simp] theorem bind_eq_ok_iff {x : Except ε α} {f : α → Except ε β} {b : β} :
    (x >>= f) = .ok b ↔ ∃ a, x = .ok a ∧ f a = .ok b := by
  cases x with
  | error e => simp [bind, Except.bind]
  | ok a => simp [bind, Except.bind]

/-- A chain whose first link succeeds is the rest of it. -/
theorem bind_of_ok {x : Except ε α} {f : α → Except ε β} {a : α} (first : x = .ok a) :
    (x >>= f) = f a := by
  rw [first]
  rfl

/-- A chain fails as its first link does, or as the rest does on what that gives. -/
@[simp] theorem bind_eq_error_iff {x : Except ε α} {f : α → Except ε β} {e : ε} :
    (x >>= f) = .error e ↔ x = .error e ∨ ∃ a, x = .ok a ∧ f a = .error e := by
  cases x with
  | error e => simp [bind, Except.bind]
  | ok a => simp [bind, Except.bind]

/-- A mapped attempt succeeds when the attempt does. -/
@[simp] theorem map_eq_ok_iff {x : Except ε α} {f : α → β} {b : β} :
    f <$> x = .ok b ↔ ∃ a, x = .ok a ∧ f a = b := by
  cases x with
  | error e => simp [Functor.map, Except.map]
  | ok a => simp [Functor.map, Except.map]

/-- An attempt with another error succeeds when it does. -/
@[simp] theorem mapError_eq_ok_iff {ε' : Type} {x : Except ε α} {f : ε → ε'} {a : α} :
    x.mapError f = .ok a ↔ x = .ok a := by
  cases x with
  | error e => exact ⟨nofun, nofun⟩
  | ok a => exact ⟨fun h => congrArg _ (Except.ok.inj h), fun h => congrArg _ (Except.ok.inj h)⟩

/-- A list of attempts succeeds when each of them does. -/
theorem mapM_eq_ok_iff {f : α → Except ε β} {xs : List α} {ys : List β} :
    xs.mapM f = .ok ys ↔ List.Forall₂ (fun x y => f x = .ok y) xs ys := by
  induction xs generalizing ys with
  | nil =>
    rw [List.mapM_nil, List.forall₂_nil_left_iff]
    exact ⟨fun h => (Except.ok.inj h).symm, fun h => by rw [h]; rfl⟩
  | cons x xs ih =>
    rw [List.mapM_cons, bind_eq_ok_iff, List.forall₂_cons_left_iff]
    constructor
    · rintro ⟨y, first, others⟩
      obtain ⟨tail, rest, whole⟩ := bind_eq_ok_iff.mp others
      exact ⟨y, tail, first, ih.mp rest, (Except.ok.inj whole).symm⟩
    · rintro ⟨y, tail, first, rest, rfl⟩
      exact ⟨y, first, bind_eq_ok_iff.mpr ⟨tail, ih.mpr rest, rfl⟩⟩

/-- Attempts that all succeed make a list of what they give. -/
theorem mapM_of_forall {f : α → Except ε β} {g : α → β} {xs : List α}
    (each : ∀ x ∈ xs, f x = .ok (g x)) : xs.mapM f = .ok (xs.map g) := by
  rw [mapM_eq_ok_iff, List.forall₂_map_right_iff, List.forall₂_same]
  exact each

/-- Each of the attempts on a list succeeds if all together do. -/
theorem exists_of_mapM {f : α → Except ε β} {xs : List α} {ys : List β}
    (done : xs.mapM f = .ok ys) : ∀ x ∈ xs, ∃ y, f x = .ok y := by
  intro x mem
  obtain ⟨position, bound, rfl⟩ := List.getElem_of_mem mem
  have each := mapM_eq_ok_iff.mp done
  exact ⟨_, List.forall₂_iff_get.mp each |>.2 position bound (each.length_eq ▸ bound)⟩

/-- **Attempts that succeed under a condition.** When `f x` succeeds just if `P x`, and then with
`g x`, for all members of a list, the attempts on it succeed just if `P` holds of all its members. -/
theorem mapM_eq_ok_iff_forall {f : α → Except ε β} {P : α → Prop} {g : α → β} {xs : List α}
    {ys : List β} (each : ∀ x ∈ xs, ∀ y, f x = .ok y ↔ P x ∧ y = g x) :
    xs.mapM f = .ok ys ↔ (∀ x ∈ xs, P x) ∧ ys = xs.map g := by
  rw [mapM_eq_ok_iff]
  exact forall₂_iff_map each

/-- The **error** of an attempt that fails. -/
def error? : Except ε α → Option ε
  | .error e => some e
  | .ok _ => none

/-- An attempt has an error when it fails with that. -/
@[simp] theorem error?_eq_some_iff {x : Except ε α} {e : ε} : error? x = some e ↔ x = .error e := by
  cases x with
  | error other => exact Option.some_inj.trans ⟨congrArg _, Except.error.inj⟩
  | ok a => exact ⟨nofun, nofun⟩

/-- An attempt has no error when it succeeds. -/
@[simp] theorem error?_eq_none_iff {x : Except ε α} : error? x = none ↔ ∃ a, x = .ok a := by
  cases x with
  | error e => exact ⟨nofun, nofun⟩
  | ok a => exact ⟨fun _ => ⟨a, rfl⟩, fun _ => rfl⟩

/-- A mapped attempt has the error of the attempt. -/
@[simp] theorem error?_map (f : α → β) (x : Except ε α) : error? (f <$> x) = error? x := by
  cases x <;> rfl

/-- **The error of a list** of attempts is that of the first one that fails. -/
theorem error?_mapM (f : α → Except ε β) (xs : List α) :
    error? (xs.mapM f) = xs.findSome? fun x => error? (f x) := by
  induction xs with
  | nil => rfl
  | cons x xs ih =>
    rw [List.mapM_cons, List.findSome?_cons, ← ih]
    cases f x with
    | error e => rfl
    | ok y => cases xs.mapM f <;> rfl

/-- A list of attempts fails only as one of them does. -/
theorem exists_of_mapM_eq_error {f : α → Except ε β} {xs : List α} {e : ε}
    (failed : xs.mapM f = .error e) : ∃ x ∈ xs, f x = .error e := by
  have first := error?_mapM f xs
  rw [error?_eq_some_iff.mpr failed] at first
  obtain ⟨x, mem, fails⟩ := List.exists_of_findSome?_eq_some first.symm
  exact ⟨x, mem, error?_eq_some_iff.mp fails⟩

end Attempt

namespace Step

variable {x : StateT σ (Except ε) α} {f : α → StateT σ (Except ε) β} {s : σ}

/-- A chain succeeds when its first link does and the rest does from the state that leaves. -/
@[simp] theorem bind_eq_ok_iff {r : β × σ} :
    (x >>= f) s = .ok r ↔ ∃ a s', x s = .ok (a, s') ∧ f a s' = .ok r := by
  change (x s >>= fun p => f p.1 p.2) = .ok r ↔ _
  rw [Attempt.bind_eq_ok_iff, Prod.exists]

/-- A chain whose first link succeeds is the rest of it from the state that leaves. -/
theorem bind_of_ok {a : α} {s' : σ} (first : x s = .ok (a, s')) : (x >>= f) s = f a s' := by
  change (x s >>= fun p => f p.1 p.2) = f a s'
  rw [first]
  rfl

/-- A chain fails as its first link does. -/
theorem bind_of_error {e : ε} (first : x s = .error e) : (x >>= f) s = .error e := by
  change (x s >>= fun p => f p.1 p.2) = .error e
  rw [first]
  rfl

/-- A mapped step succeeds when the step does. -/
@[simp] theorem map_eq_ok_iff {g : α → β} {r : β × σ} :
    (g <$> x) s = .ok r ↔ ∃ a s', x s = .ok (a, s') ∧ (g a, s') = r := by
  change (x s >>= fun p => pure (g p.1, p.2)) = .ok r ↔ _
  rw [Attempt.bind_eq_ok_iff, Prod.exists]
  simp only [pure, Except.pure, Except.ok.injEq]

/-- A mapped step that succeeds. -/
theorem map_of_ok {g : α → β} {a : α} {s' : σ} (first : x s = .ok (a, s')) :
    (g <$> x) s = .ok (g a, s') :=
  map_eq_ok_iff.mpr ⟨a, s', first, rfl⟩

/-- A mapped step fails as the step does. -/
theorem map_of_error {g : α → β} {e : ε} (first : x s = .error e) : (g <$> x) s = .error e :=
  bind_of_error (f := fun a => pure (g a)) first

/-- **In a list** of steps that succeed, each does so from the state that those in front of it leave. -/
theorem exists_of_mapM {f : α → StateT σ (Except ε) β} {xs : List α} {ys : List β} {s s' : σ}
    (done : xs.mapM f s = .ok (ys, s')) {position : Nat} {x : α} (here : xs[position]? = some x) :
    ∃ before y after, (xs.take position).mapM f s = .ok (ys.take position, before)
      ∧ f x before = .ok (y, after) ∧ ys[position]? = some y := by
  induction xs generalizing ys s position with
  | nil => cases here
  | cons first rest ih =>
    rw [List.mapM_cons] at done
    obtain ⟨y, s₁, head, behind⟩ := bind_eq_ok_iff.mp done
    obtain ⟨others, s₂, tail, returned⟩ := bind_eq_ok_iff.mp behind
    obtain ⟨rfl, rfl⟩ := Prod.mk.inj (Except.ok.inj returned)
    cases position with
    | zero =>
      obtain rfl := Option.some.inj here
      exact ⟨s, y, s₁, rfl, head, rfl⟩
    | succ position =>
      obtain ⟨before, y', after, front, step, there⟩ := ih tail here
      refine ⟨before, y', after, ?_, step, there⟩
      rw [List.take_succ_cons, List.mapM_cons, bind_of_ok head, bind_of_ok front]
      rfl

/-- **In a list** of steps that fails, those in front of the one that does have succeeded. -/
theorem exists_of_mapM_eq_error {f : α → StateT σ (Except ε) β} {xs : List α} {s : σ} {e : ε}
    (failed : xs.mapM f s = .error e) :
    ∃ front x behind ys s', xs = front ++ x :: behind ∧ front.mapM f s = .ok (ys, s')
      ∧ f x s' = .error e := by
  induction xs generalizing s with
  | nil => cases failed
  | cons x xs ih =>
    cases first : f x s with
    | error e' =>
      rw [List.mapM_cons, bind_of_error first] at failed
      cases failed
      exact ⟨[], x, xs, [], s, rfl, rfl, first⟩
    | ok r =>
      obtain ⟨y, s'⟩ := r
      rw [List.mapM_cons, bind_of_ok first] at failed
      cases rest : xs.mapM f s' with
      | error e' =>
        rw [bind_of_error rest] at failed
        cases failed
        obtain ⟨front, x', behind, ys, s'', rfl, before, fails⟩ := ih rest
        refine ⟨x :: front, x', behind, y :: ys, s'', rfl, ?_, fails⟩
        rw [List.mapM_cons, bind_of_ok first, bind_of_ok before]
        rfl
      | ok r =>
        rw [bind_of_ok rest] at failed
        cases failed

/-- A step **recasts** another if it does the same and fails for the same reasons, told in other words. -/
def Recasts (words : ε → ε) (x' x : StateT σ (Except ε) α) : Prop :=
  ∀ s, x' s = (x s).mapError words

/-- Nothing is told about a value that is only returned. -/
theorem recasts_pure (words : ε → ε) (a : α) :
    Recasts words (pure a : StateT σ (Except ε) α) (pure a) := fun _ => rfl

/-- An attempt that is recast. -/
theorem recasts_attempt {words : ε → ε} {x' x : Except ε α} (same : x' = x.mapError words) :
    Recasts words (liftM x' : StateT σ (Except ε) α) (liftM x) := by
  intro s
  rw [same]
  cases x <;> rfl

/-- **A chain is recast** link by link. -/
theorem Recasts.bind {words : ε → ε} {x' x : StateT σ (Except ε) α} {f' f : α → StateT σ (Except ε) β}
    (first : Recasts words x' x) (rest : ∀ a, Recasts words (f' a) (f a)) :
    Recasts words (x' >>= f') (x >>= f) := by
  intro s
  have head := first s
  cases outcome : x s with
  | error e =>
    rw [outcome] at head
    rw [bind_of_error head, bind_of_error outcome]
    rfl
  | ok r =>
    rw [outcome] at head
    rw [bind_of_ok head, bind_of_ok outcome]
    exact rest r.1 r.2

/-- **A list is recast** member by member. -/
theorem recasts_mapM {words : ε → ε} {f' f : α → StateT σ (Except ε) β} {xs : List α}
    (each : ∀ x ∈ xs, Recasts words (f' x) (f x)) : Recasts words (xs.mapM f') (xs.mapM f) := by
  induction xs with
  | nil => exact recasts_pure words []
  | cons x xs ih =>
    have others := ih fun y mem => each y (List.mem_cons_of_mem x mem)
    rw [List.mapM_cons, List.mapM_cons]
    exact (each x List.mem_cons_self).bind fun _ => others.bind fun _ => recasts_pure words _

end Step

namespace Action

variable {x : ExceptT ε (StateM σ) α} {f : α → ExceptT ε (StateM σ) β} {s s' : σ}

/-- A chain whose first link succeeds is the rest of it from the state that leaves. -/
theorem bind_of_ok {a : α} (first : x.run.run s = (.ok a, s')) :
    (x >>= f).run.run s = (f a).run.run s' := by
  rw [ExceptT.run_bind, StateT.run_bind, first]
  rfl

/-- A chain fails as its first link does. -/
theorem bind_of_error {e : ε} (first : x.run.run s = (.error e, s')) :
    (x >>= f).run.run s = (.error e, s') := by
  rw [ExceptT.run_bind, StateT.run_bind, first]
  rfl

/-- A chain goes on from where its first link ends, or ends there. -/
theorem bind_run : (x >>= f).run.run s
    = match x.run.run s with
      | (.ok a, s') => (f a).run.run s'
      | (.error e, s') => (.error e, s') := by
  rcases first : x.run.run s with ⟨_ | _, s'⟩
  · exact bind_of_error first
  · exact bind_of_ok first

/-- A chain with another error ends as it does but for that. -/
@[simp] theorem adapt_run {ε' : Type} (g : ε → ε') :
    (x.adapt g).run.run s = (x.run.run s).map (·.mapError g) id := rfl

end Action

/-- **Recording all** does nothing if recording does nothing. -/
theorem Journal.recordAll_eq_pure {m : Type → Type} [Monad m] [LawfulMonad m] [Journal m]
    (silent : ∀ r, (Journal.record r : m Unit) = pure ()) (records : List Record) :
    (Journal.recordAll records : m Unit) = pure () := by
  rw [Journal.recordAll]
  induction records with
  | nil => rfl
  | cons record rest ih =>
    rw [List.forM_eq_forM, List.forM_cons, ← List.forM_eq_forM, ih, silent, pure_bind]

end Hotpatch
