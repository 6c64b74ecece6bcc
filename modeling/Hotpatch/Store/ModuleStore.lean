import Hotpatch.Module
import Hotpatch.Store.Resolver

/-! # Module stores

Where modules are read from and written to. -/

namespace Hotpatch

/-- A **module store**. -/
structure ModuleStore (m : Type → Type) where
  /-- Read a module, and find everything it refers to. -/
  load : Resolver → Path → ExceptT Fault m Module
  /-- Write a module. -/
  save : Module → Path → ExceptT Fault m Unit
  /-- Whether two paths lead to the same place. -/
  sameFile : Path → Path → m Bool

end Hotpatch
