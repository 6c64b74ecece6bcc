import Hotpatch.Proofs.Image.Shape

/-! # Faults of writing

Whether a well-formed module can be written is decided by its bodies, and the fault is that of the
first body that has one.

* **`Module.fault?`** — the fault for which a module cannot be written.
* **`Module.exists_write_iff`**, **`Module.write_eq_error`** — writing succeeds without a fault,
  and fails with the fault there is. -/

namespace Hotpatch

variable {b : Body} {method : MethodDef} {t : TypeDef} {m : Module}

/-- The **fault** for which a module cannot be written: that of its first body that has one. -/
def Module.fault? (m : Module) : Option Fault :=
  m.bodies.findSome? Body.fault?

/-- A method has the fault of its body. -/
theorem decides_write_method (wf : ∀ b, method.body? = some b → b.WellFormed) :
    method.write.Decides (method.body?.bind Body.fault?) := by
  have body : (writeBody? method.body?).Decides (method.body?.bind Body.fault?) := by
    cases has : method.body? with
    | none => exact Assembler.decides_pure _
    | some b => exact ((wf b has).decides_encode.bind_pure _).bind_pure _
  exact body.bind_pure _

/-- A type has the first fault of its bodies. -/
theorem decides_write_type (wf : ∀ b ∈ t.bodies, b.WellFormed) :
    t.write.Decides (t.bodies.findSome? Body.fault?) := by
  have methods : (t.methods.mapM MethodDef.write).Decides
      (t.methods.findSome? fun method => method.body?.bind Body.fault?) :=
    Assembler.Decides.mapM fun method mem =>
      decides_write_method fun b has => wf b (TypeDef.mem_bodies mem has)
  have same : (t.methods.findSome? fun method => method.body?.bind Body.fault?)
      = t.bodies.findSome? Body.fault? := by
    rw [TypeDef.bodies, List.filterMap_eq_flatMap_toList, findSome?_flatMap]
    congr 1
    funext method
    cases method.body? <;> simp
  rw [← same]
  exact methods.bind_pure _

/-- **The types of a module** have the fault of the module. -/
theorem Module.decides_writeTypes (wf : m.WellFormed) : m.writeTypes.Decides m.fault? := by
  have types : (m.types.mapM TypeDef.write).Decides
      (m.types.findSome? fun t => t.bodies.findSome? Body.fault?) :=
    Assembler.Decides.mapM fun t mem =>
      decides_write_type fun b inside => wf b (Module.mem_bodies mem inside)
  rw [fault?, bodies, findSome?_flatMap]
  exact types.bind_pure _

/-- **A module can be written** exactly if it has no fault. -/
theorem Module.exists_write_iff (wf : m.WellFormed) :
    (∃ bytes, m.write = .ok bytes) ↔ m.fault? = none := by
  have decides := Module.decides_writeTypes wf
  constructor
  · rintro ⟨bytes, written⟩
    obtain ⟨⟨types, tokens⟩, wrote, -⟩ := Attempt.bind_eq_ok_iff.mp written
    exact decides.eq_none wrote
  · intro none
    rw [none] at decides
    obtain ⟨types, tokens, wrote⟩ := decides .empty
    exact ⟨_, Attempt.bind_of_ok wrote⟩

/-- **Writing fails** with the fault of the module. -/
theorem Module.write_eq_error (wf : m.WellFormed) {fault : Fault} (has : m.fault? = some fault) :
    m.write = .error fault := by
  have decides := Module.decides_writeTypes wf
  rw [has] at decides
  have wrote : m.writeTypes.run .empty = .error fault := decides .empty
  rw [write, wrote]
  rfl

/-- Writing fails only with the fault of a body. -/
theorem Module.exists_of_write_eq_error (wf : m.WellFormed) {fault : Fault}
    (failed : m.write = .error fault) : ∃ b ∈ m.bodies, b.fault? = some fault := by
  cases has : m.fault? with
  | none =>
    obtain ⟨bytes, written⟩ := (Module.exists_write_iff wf).mpr has
    cases failed.symm.trans written
  | some other =>
    obtain rfl := Except.error.inj (failed.symm.trans (Module.write_eq_error wf has))
    exact List.exists_of_findSome?_eq_some has

/-- No body of a module that was written has a fault. -/
theorem Module.fault?_eq_none_of_write (wf : m.WellFormed) {bytes : List UInt8}
    (written : m.write = .ok bytes) (mem : b ∈ m.bodies) : b.fault? = none := by
  have none := (Module.exists_write_iff wf).mp ⟨bytes, written⟩
  exact List.findSome?_eq_none_iff.mp none b mem

end Hotpatch
