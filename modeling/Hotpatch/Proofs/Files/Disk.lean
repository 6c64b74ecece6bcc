import Hotpatch.Files.FileSystem
import Hotpatch.Journal
import Mathlib.Logic.Function.Basic

/-! # Disks

A file system as a map from paths to files and directories. Calls that change it take effect or fail
without effect, and they may fail for no reason that can be seen on the disk.

* **`Disk`** — what each place holds, which calls will be refused, and the calls so far.
* **`Disk.write`**, **`Disk.rename`**, **`Disk.remove`** — the calls.
* **`Call.Affects`** — what a call does to the places it touches, none of which is a directory.
* **`Disk.Leads`** — from one disk to another by some calls; what they do not touch stays, and so do all
  directories. -/

namespace Hotpatch

/-- A **place** on a disk: the components of the paths that lead there. -/
abbrev Place := List Path.Component

/-- An **item**: what a place holds. -/
inductive Item where
  | file (contents : List UInt8)
  | directory
deriving Repr, DecidableEq

/-- A **call** that changes a disk, if it takes effect. -/
inductive Call where
  | write (place : Place)
  | rename (source target : Place)
  | remove (place : Place)
deriving Repr, DecidableEq

/-- The **places that a call changes**. -/
def Call.touched : Call → List Place
  | .write place => [place]
  | .rename source target => [source, target]
  | .remove place => [place]

/-- A call **affects** the files at the places it touches. They are no directories before it or after it. -/
structure Call.Affects (call : Call) (before after : Place → Option Item) : Prop where
  frame : ∀ place ∉ call.touched, after place = before place
  files : ∀ place ∈ call.touched, before place ≠ some .directory ∧ after place ≠ some .directory

/-- A **disk**. -/
structure Disk where
  item? : Place → Option Item
  /-- For each write and each rename to come, the error with which it is refused, if it is. -/
  refusals : List (Option FileError)
  /-- The calls so far, each with whether it took effect. -/
  calls : List (Call × Bool)

namespace Disk

/-- A disk with the given **items** and nothing else, that refuses no call. -/
def ofItems (items : List (Place × Item)) : Disk :=
  ⟨(List.lookup · items), [], []⟩

/-! ## (1) Calls -/

/-- A disk on which a call **ends**: with what the places hold then, or in an error. -/
def conclude (d : Disk) (call : Call) (ending : Except FileError (Place → Option Item)) :
    Except FileError Unit × Disk :=
  match ending with
  | .ok item? => (.ok (), { d with item?, calls := d.calls ++ [(call, true)] })
  | .error error => (.error error, { d with calls := d.calls ++ [(call, false)] })

/-- A call that may be **refused**. -/
def concludeUnlessRefused (d : Disk) (call : Call)
    (ending : Except FileError (Place → Option Item)) : Except FileError Unit × Disk :=
  conclude { d with refusals := d.refusals.tail } call
    (match d.refusals.head?.join with
    | some error => .error error
    | none => ending)

/-- **Write** a file, where there is no directory. -/
def write (d : Disk) (place : Place) (contents : List UInt8) : Except FileError Unit × Disk :=
  d.concludeUnlessRefused (.write place) <|
    if d.item? place = some .directory then .error .isDirectory
    else .ok (Function.update d.item? place (some (.file contents)))

/-- **Rename** a file, where there is no directory of its new name. -/
def rename (d : Disk) (source target : Place) : Except FileError Unit × Disk :=
  d.concludeUnlessRefused (.rename source target) <|
    match d.item? source with
    | none => .error .notFound
    | some .directory => .error .isDirectory
    | some (.file contents) =>
      if d.item? target = some .directory then .error .isDirectory
      else .ok (Function.update (Function.update d.item? source none) target (some (.file contents)))

/-- **Remove** a file. -/
def remove (d : Disk) (place : Place) : Except FileError Unit × Disk :=
  d.conclude (.remove place) <|
    match d.item? place with
    | none => .error .notFound
    | some .directory => .error .isDirectory
    | some (.file _) => .ok (Function.update d.item? place none)

/-- **Read** a file. -/
def read (d : Disk) (place : Place) : Except FileError (List UInt8) :=
  match d.item? place with
  | none => .error .notFound
  | some .directory => .error .isDirectory
  | some (.file contents) => .ok contents

instance : FileSystem (StateM Disk) where
  read p := return (← get).read p.components
  write p contents := modifyGet (·.write p.components contents)
  rename old new := modifyGet (·.rename old.components new.components)
  remove p := modifyGet (·.remove p.components)
  isFile p := return ((← get).read p.components).toBool
  canonical? p := return if ((← get).item? p.components).isSome then some p else none

/-- A disk keeps no journal. -/
instance : Journal (StateM Disk) where
  record _ := pure ()

/-- To write as a program is to write on the disk. -/
@[simp] theorem run_write (d : Disk) (p : Path) (contents : List UInt8) :
    (FileSystem.write p contents : StateM Disk _).run d = d.write p.components contents := rfl

/-- To rename as a program is to rename on the disk. -/
@[simp] theorem run_rename (d : Disk) (old new : Path) :
    (FileSystem.rename old new : StateM Disk _).run d = d.rename old.components new.components := rfl

/-- A file is read if there is one. -/
@[simp] theorem read_eq_ok_iff {d : Disk} {place : Place} {contents : List UInt8} :
    d.read place = .ok contents ↔ d.item? place = some (.file contents) := by
  rw [read]
  split <;> simp_all

/-- Nothing is found where there is nothing. -/
@[simp] theorem read_eq_notFound_iff {d : Disk} {place : Place} :
    d.read place = .error .notFound ↔ d.item? place = none := by
  rw [read]
  split <;> simp_all

/-! ## (2) What calls lead to -/

/-- Some calls **lead** from one disk to another: they are those made in between. The places that none of
them touched hold what they held, directories stay and none is made, and the calls that took effect touched
none. -/
structure Leads (d : Disk) (calls : List (Call × Bool)) (d' : Disk) : Prop where
  trace : d'.calls = d.calls ++ calls
  frame : ∀ place, (∀ call, (call, true) ∈ calls → place ∉ call.touched) →
    d'.item? place = d.item? place
  directories : ∀ place, d'.item? place = some .directory ↔ d.item? place = some .directory
  avoids : ∀ call, (call, true) ∈ calls → ∀ place ∈ call.touched, d.item? place ≠ some .directory

variable {d d' d'' : Disk} {place : Place} {contents : List UInt8} {error : FileError}
  {more calls : List (Call × Bool)} {call : Call} {ending : Except FileError (Place → Option Item)}

/-- No calls lead nowhere. -/
@[simp] theorem Leads.refl (d : Disk) : d.Leads [] d :=
  ⟨(List.append_nil _).symm, fun _ _ => rfl, fun _ => .rfl, nofun⟩

/-- Calls lead on from where calls led. -/
theorem Leads.trans (first : d.Leads calls d') (second : d'.Leads more d'') :
    d.Leads (calls ++ more) d'' := by
  refine ⟨by rw [second.trace, first.trace, List.append_assoc], fun place untouched => ?_,
    fun place => (second.directories place).trans (first.directories place),
    fun call mem place touched => ?_⟩
  · rw [second.frame place fun call mem => untouched call (List.mem_append_right _ mem),
      first.frame place fun call mem => untouched call (List.mem_append_left _ mem)]
  · rcases List.mem_append.mp mem with mem | mem
    · exact first.avoids call mem place touched
    · exact mt (first.directories place).mpr (second.avoids call mem place touched)

/-- **One call** changes no place that it does not touch, and none at all if it has no effect. -/
theorem Leads.frame_single {done : Bool} (leads : d.Leads [(call, done)] d')
    (outside : done = true → place ∉ call.touched) : d'.item? place = d.item? place := by
  refine leads.frame place fun other mem => ?_
  obtain ⟨rfl, rfl⟩ := Prod.mk.inj (List.mem_singleton.mp mem)
  exact outside rfl

/-- **A call leads** to the disk on which it ends, if it affects no more than it touches. -/
theorem leads_conclude (affects : ∀ item?, ending = .ok item? → call.Affects d.item? item?) :
    d.Leads [(call, (d.conclude call ending).1.toBool)] (d.conclude call ending).2 := by
  cases ending with
  | error error =>
    refine ⟨rfl, fun _ _ => rfl, fun _ => .rfl, fun other mem => ?_⟩
    cases (Prod.mk.inj (List.mem_singleton.mp mem)).2
  | ok item? =>
    have effect := affects item? rfl
    refine ⟨rfl, fun place untouched => effect.frame place (untouched call List.mem_cons_self),
      fun place => ?_, fun other mem place touched => ?_⟩
    · show item? place = some .directory ↔ _
      by_cases touched : place ∈ call.touched
      · have files := effect.files place touched
        exact iff_of_false files.2 files.1
      · rw [effect.frame place touched]
    · obtain ⟨rfl, -⟩ := Prod.mk.inj (List.mem_singleton.mp mem)
      exact (effect.files place touched).1

/-- The same for a call that may be refused. -/
theorem leads_concludeUnlessRefused (affects : ∀ item?, ending = .ok item? → call.Affects d.item? item?) :
    d.Leads [(call, (d.concludeUnlessRefused call ending).1.toBool)]
      (d.concludeUnlessRefused call ending).2 := by
  have leads := @leads_conclude { d with refusals := d.refusals.tail } call
    (match d.refusals.head?.join with | some error => .error error | none => ending)
    fun item? same => affects item? (by
      split at same
      · cases same
      · exact same)
  exact ⟨leads.trace, leads.frame, leads.directories, leads.avoids⟩

/-- **Writing** touches one place. -/
theorem leads_write (d : Disk) (place : Place) (contents : List UInt8) :
    d.Leads [(.write place, (d.write place contents).1.toBool)] (d.write place contents).2 := by
  refine leads_concludeUnlessRefused fun item? same => ?_
  split at same
  · cases same
  · next notDirectory =>
    obtain rfl := Except.ok.inj same
    refine ⟨fun other outside => Function.update_of_ne (mt List.mem_singleton.mpr outside) _ _,
      fun other inside => ?_⟩
    obtain rfl := List.mem_singleton.mp inside
    simp [notDirectory]

/-- **Renaming** touches two places. -/
theorem leads_rename (d : Disk) (source target : Place) :
    d.Leads [(.rename source target, (d.rename source target).1.toBool)]
      (d.rename source target).2 := by
  refine leads_concludeUnlessRefused fun item? same => ?_
  split at same
  · cases same
  · cases same
  · next contents has =>
    split at same
    · cases same
    · next notDirectory =>
      obtain rfl := Except.ok.inj same
      refine ⟨fun other outside => ?_, fun other inside => ?_⟩
      · obtain ⟨notSource, notTarget⟩ : other ≠ source ∧ other ≠ target := by
          simpa [Call.touched] using outside
        rw [Function.update_of_ne notTarget, Function.update_of_ne notSource]
      · -- The source may be the target.
        by_cases atTarget : other = target
        · subst atTarget
          simp [notDirectory]
        · obtain rfl : other = source := by
            simpa [Call.touched, atTarget] using inside
          simp [Function.update_of_ne atTarget, has]

/-- **Removing** touches one place. -/
theorem leads_remove (d : Disk) (place : Place) :
    d.Leads [(.remove place, (d.remove place).1.toBool)] (d.remove place).2 := by
  refine leads_conclude fun item? same => ?_
  split at same
  · cases same
  · cases same
  · next contents has =>
    obtain rfl := Except.ok.inj same
    refine ⟨fun other outside => Function.update_of_ne (mt List.mem_singleton.mpr outside) _ _,
      fun other inside => ?_⟩
    obtain rfl := List.mem_singleton.mp inside
    simp [has]

/-! ## (3) What calls leave -/

/-- A place that holds **no file**. -/
def Clear (d : Disk) (place : Place) : Prop :=
  ∀ contents, d.item? place ≠ some (.file contents)

/-- **Nothing** is at a place that holds neither a file nor a directory. -/
theorem Clear.item?_eq_none (clear : d.Clear place) (notDirectory : d.item? place ≠ some .directory) :
    d.item? place = none := by
  cases item : d.item? place with
  | none => rfl
  | some found =>
    cases found with
    | file contents => exact absurd item (clear contents)
    | directory => exact absurd item notDirectory

/-- A call that took effect left what it ended with. -/
theorem item?_of_concludeUnlessRefused (done : d.concludeUnlessRefused call ending = (.ok (), d')) :
    ending = .ok d'.item? := by
  unfold concludeUnlessRefused at done
  split at done
  · cases done
  · cases ending with
    | error error => cases done
    | ok item? =>
      obtain rfl := (Prod.mk.inj done).2
      rfl

/-- What was written is there. -/
theorem item?_of_write (done : d.write place contents = (.ok (), d')) :
    d'.item? place = some (.file contents) := by
  have ending := item?_of_concludeUnlessRefused done
  split at ending
  · cases ending
  · rw [← Except.ok.inj ending]
    exact Function.update_self _ _ _

/-- A file that was renamed is at its new place. -/
theorem item?_of_rename {source target : Place}
    (done : d.rename source target = (.ok (), d')) : d'.item? target = d.item? source := by
  have ending := item?_of_concludeUnlessRefused done
  split at ending
  · cases ending
  · cases ending
  · next contents has =>
    split at ending
    · cases ending
    · rw [← Except.ok.inj ending, Function.update_self, has]

/-- **Writing** leaves the other places as they are. -/
theorem item?_write_of_ne {ending : Except FileError Unit} {other : Place}
    (done : d.write place contents = (ending, d')) (apart : other ≠ place) :
    d'.item? other = d.item? other := by
  obtain rfl : (d.write place contents).2 = d' := congrArg Prod.snd done
  exact (d.leads_write place contents).frame_single fun _ => mt List.mem_singleton.mp apart

/-- **Renaming** leaves the other places as they are. -/
theorem item?_rename_of_ne {ending : Except FileError Unit} {source target other : Place}
    (done : d.rename source target = (ending, d')) (notSource : other ≠ source)
    (notTarget : other ≠ target) : d'.item? other = d.item? other := by
  obtain rfl : (d.rename source target).2 = d' := congrArg Prod.snd done
  refine (d.leads_rename source target).frame_single fun _ touched => ?_
  rcases List.mem_cons.mp touched with same | same
  · exact notSource same
  · exact notTarget (List.mem_singleton.mp same)

/-- **Removing clears** a place, and no other one gets a file by it. -/
theorem clear_remove (d : Disk) (place : Place) :
    (d.remove place).2.Clear place ∧ ∀ other, d.Clear other → (d.remove place).2.Clear other := by
  rw [remove]
  split
  · next has => exact ⟨fun contents same => (nomatch has.symm.trans same), fun other clear => clear⟩
  · next has => exact ⟨fun contents same => (nomatch has.symm.trans same), fun other clear => clear⟩
  · next contents has =>
    have after : (Function.update d.item? place none) place = none := Function.update_self _ _ _
    refine ⟨fun contents same => (nomatch after.symm.trans same),
      fun other clear contents same => ?_⟩
    by_cases here : other = place
    · subst here
      cases after.symm.trans same
    · exact clear contents ((Function.update_of_ne here _ _).symm.trans same)

end Disk

end Hotpatch
