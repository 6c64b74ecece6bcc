import Hotpatch.Proofs.Files.Disk

/-! # Disks that fail

A disk on which calls may be left halfway. A write that is leaves some of its data, or has not even begun;
files are renamed and removed as a whole or not at all. A call that is left halfway fails, or the disk
stops with it for good. What a disk that has stopped holds is what it held at that moment, so that the
states a disk passes through are those in which it may stop.

* **`Fate`** — what becomes of a call.
* **`FragileDisk`** — what each place holds, and the fates of the calls to come.
* **`FragileDisk.write`**, **`FragileDisk.rename`**, **`FragileDisk.remove`** — the calls.
* **`FragileDisk.ChangesOnly`** — what stays from one disk to another; each call, whatever its fate, changes
  only what it touches. -/

namespace Hotpatch

/-- The **fate** of a call. -/
inductive Fate where
  /-- It comes to its end, as it would on any disk. -/
  | ends
  /-- It fails. If it is a write, it may have left so many bytes. -/
  | fails (error : FileError) (written? : Option Nat)
  /-- The disk stops. If the call is a write, it may have left so many bytes. -/
  | stops (written? : Option Nat)
deriving Repr, DecidableEq

/-- A **fragile disk**. -/
structure FragileDisk where
  item? : Place → Option Item
  /-- The fates of the calls to come. Calls behind the last of them come to their end. -/
  fates : List Fate
  /-- Nothing happens any more. -/
  stopped : Bool

namespace FragileDisk

variable {d d' d'' : FragileDisk} {place source target : Place} {places more : List Place}
  {contents : List UInt8} {call : Call} {done : Bool} {whole : Except FileError Unit × Disk} {partly : Nat → Place → Option Item} {error : FileError}

/-! ## (1) Calls -/

/-- The disk as it is, with calls that **come to their end**. -/
def sound (d : FragileDisk) : Disk :=
  ⟨d.item?, [], []⟩

/-- The error of a call to a disk that has stopped. Nobody is left to see it. -/
def silence : FileError :=
  .other "stopped"

/-- A call **meets its fate**: it comes to its end, or to where it was left after some bytes. -/
def meet (d : FragileDisk) (whole : Except FileError Unit × Disk) (partly : Nat → Place → Option Item) :
    Except FileError Unit × FragileDisk :=
  if d.stopped then (.error silence, d)
  else
    match d.fates.headD .ends with
    | .ends => (whole.1, ⟨whole.2.item?, d.fates.tail, false⟩)
    | .fails error written? =>
      (.error error, ⟨(written?.map partly).getD d.item?, d.fates.tail, false⟩)
    | .stops written? => (.error silence, ⟨(written?.map partly).getD d.item?, d.fates.tail, true⟩)

/-- **Write** a file. -/
def write (d : FragileDisk) (place : Place) (contents : List UInt8) :
    Except FileError Unit × FragileDisk :=
  d.meet (d.sound.write place contents) fun count =>
    if d.item? place = some .directory then d.item?
    else Function.update d.item? place (some (.file (contents.take count)))

/-- **Rename** a file. -/
def rename (d : FragileDisk) (source target : Place) : Except FileError Unit × FragileDisk :=
  d.meet (d.sound.rename source target) fun _ => d.item?

/-- **Remove** a file. -/
def remove (d : FragileDisk) (place : Place) : Except FileError Unit × FragileDisk :=
  d.meet (d.sound.remove place) fun _ => d.item?

instance : FileSystem (StateM FragileDisk) where
  read p := return (← get).sound.read p.components
  write p contents := modifyGet (·.write p.components contents)
  rename old new := modifyGet (·.rename old.components new.components)
  remove p := modifyGet (·.remove p.components)
  isFile p := return ((← get).sound.read p.components).toBool
  canonical? p := return if ((← get).item? p.components).isSome then some p else none

/-- A fragile disk keeps no journal either. -/
instance : Journal (StateM FragileDisk) where
  record _ := pure ()

/-- To write as a program is to write on the disk. -/
@[simp] theorem run_write (d : FragileDisk) (p : Path) (contents : List UInt8) :
    (FileSystem.write p contents : StateM FragileDisk _).run d = d.write p.components contents := rfl

/-- To rename as a program is to rename on the disk. -/
@[simp] theorem run_rename (d : FragileDisk) (old new : Path) :
    (FileSystem.rename old new : StateM FragileDisk _).run d
      = d.rename old.components new.components := rfl

/-- To remove as a program is to remove on the disk. -/
@[simp] theorem run_remove (d : FragileDisk) (p : Path) :
    (FileSystem.remove p : StateM FragileDisk _).run d = d.remove p.components := rfl

/-! ## (2) What calls leave -/

/-- From one disk to another, **only some places change**. -/
def ChangesOnly (d : FragileDisk) (places : List Place) (d' : FragileDisk) : Prop :=
  ∀ place ∉ places, d'.item? place = d.item? place

/-- From a disk to itself, nothing changes. -/
@[simp] theorem ChangesOnly.refl (d : FragileDisk) (places : List Place) : d.ChangesOnly places d :=
  fun _ _ => rfl

/-- Changes at the same places, one after the other. -/
theorem ChangesOnly.trans (first : d.ChangesOnly places d') (second : d'.ChangesOnly places d'') :
    d.ChangesOnly places d'' :=
  fun place outside => (second place outside).trans (first place outside)

/-- Changes at some places are changes at more of them. -/
theorem ChangesOnly.mono (changes : d.ChangesOnly places d') (inside : places ⊆ more) :
    d.ChangesOnly more d' :=
  fun place outside => changes place fun mem => outside (inside mem)

/-- A call changes only what it touches, **whatever its fate**, if it does so whole and partly. -/
theorem changesOnly_meet (whole_leads : d.sound.Leads [(call, done)] whole.2)
    (partly_keeps : ∀ count, ∀ place ∉ call.touched, partly count place = d.item? place) :
    d.ChangesOnly call.touched (d.meet whole partly).2 := by
  intro place outside
  have left (written? : Option Nat) : (written?.map partly).getD d.item? place = d.item? place := by
    cases written? with
    | none => rfl
    | some count => exact partly_keeps count place outside
  rw [meet]
  split
  · rfl
  · split
    · exact whole_leads.frame_single fun _ => outside
    · exact left _
    · exact left _

/-- A call that **takes effect** does so whole. -/
theorem of_meet_eq_ok (done : d.meet whole partly = (.ok (), d')) :
    whole.1 = .ok () ∧ whole.2.item? = d'.item? := by
  rw [meet] at done
  split at done
  · cases done
  · split at done
    · exact ⟨(Prod.mk.inj done).1, congrArg item? (Prod.mk.inj done).2⟩
    · cases done
    · cases done

/-- **Writing** changes one place. -/
theorem changesOnly_write (d : FragileDisk) (place : Place) (contents : List UInt8) :
    d.ChangesOnly [place] (d.write place contents).2 := by
  refine changesOnly_meet (d.sound.leads_write place contents) fun count other outside => ?_
  split
  · rfl
  · exact Function.update_of_ne (mt List.mem_singleton.mpr outside) _ _

/-- What was written as a whole is there. -/
theorem item?_of_write (done : d.write place contents = (.ok (), d')) :
    d'.item? place = some (.file contents) := by
  obtain ⟨ended, same⟩ := of_meet_eq_ok done
  rw [← same]
  exact Disk.item?_of_write (Prod.ext ended rfl)

/-- **Renaming** changes two places. -/
theorem changesOnly_rename (d : FragileDisk) (source target : Place) :
    d.ChangesOnly [source, target] (d.rename source target).2 :=
  changesOnly_meet (d.sound.leads_rename source target) fun _ _ _ => rfl

/-- A file that was renamed is at its new place. -/
theorem item?_of_rename (done : d.rename source target = (.ok (), d')) :
    d'.item? target = d.item? source := by
  obtain ⟨ended, same⟩ := of_meet_eq_ok done
  rw [← same]
  exact Disk.item?_of_rename (d := d.sound) (Prod.ext ended rfl)

/-- A rename that **fails** changes nothing. -/
theorem changesOnly_of_rename_eq_error (failed : d.rename source target = (.error error, d')) :
    d.ChangesOnly [] d' := by
  intro place _
  have kept (written? : Option Nat) : (written?.map fun _ => d.item?).getD d.item? = d.item? := by
    cases written? <;> rfl
  rw [rename, meet] at failed
  split at failed
  · rw [← (Prod.mk.inj failed).2]
  · split at failed
    · obtain ⟨refused, rfl⟩ := Prod.mk.inj failed
      have leads := d.sound.leads_rename source target
      rw [refused] at leads
      exact leads.frame_single nofun
    · rw [← (Prod.mk.inj failed).2]
      exact congrFun (kept _) place
    · rw [← (Prod.mk.inj failed).2]
      exact congrFun (kept _) place

/-- **Removing** changes one place. -/
theorem changesOnly_remove (d : FragileDisk) (place : Place) :
    d.ChangesOnly [place] (d.remove place).2 :=
  changesOnly_meet (d.sound.leads_remove place) fun _ _ _ => rfl

end FragileDisk

end Hotpatch
