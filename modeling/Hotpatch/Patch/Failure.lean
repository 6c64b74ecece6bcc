import Hotpatch.Fault

/-! # Failures

Why a module of a batch was not processed, or a batch not started.

* **`Stage`** — how far a method got.
* **`Failure`** — the cause, with the path or the method it happened to.
* **`Failure.message`**, **`Failure.cause?`** — the wording, and that of the fault below. -/

namespace Hotpatch

/-- A **stage** of patching a method. -/
inductive Stage where
  | selected | synthesized | spliced | offsetsRecomputed | serialized
deriving Repr, DecidableEq, Inhabited

/-- **Text** of a stage, as an activity. -/
def Stage.text : Stage → String
  | selected => "selection"
  | synthesized => "preamble synthesis"
  | spliced => "splicing"
  | offsetsRecomputed => "offset recomputation"
  | serialized => "serialization"

/-- A **failure** of the batch or of one of its modules. -/
inductive Failure where
  /-- The module, or something it needs, could not be read. -/
  | load (path : Path) (fault : Fault)
  /-- The patched module could not be written. -/
  | write (path : Path) (fault : Fault)
  /-- A method could not be patched. -/
  | method (typeName methodName : String) (stage : Stage) (fault : Fault)
  /-- The methods of the registry cannot be called in the way preambles call them. -/
  | invalidRegistry (reason : String)
  /-- The output would take the place of the input. -/
  | outputOverwritesInput (path : Path)
  /-- The input path has no file name for the output to take over. -/
  | missingFileName (path : Path)
deriving Repr, DecidableEq, Inhabited

namespace Failure

/-- **Message** of a failure. -/
def message : Failure → String
  | load path fault => "failed to load " ++ path.text ++ ": " ++ fault.message
  | write path fault => "failed to write " ++ path.text ++ ": " ++ fault.message
  | method typeName methodName stage fault =>
    "failed to instrument " ++ typeName ++ "::" ++ methodName ++ " during " ++ stage.text ++ ": "
      ++ fault.message
  | invalidRegistry reason => "invalid patch registry: " ++ reason
  | outputOverwritesInput path => "output would overwrite input " ++ path.text
  | missingFileName path => "input path " ++ path.text ++ " has no file name"

/-- The **fault** below a failure, if there is one. -/
def fault? : Failure → Option Fault
  | load _ fault | write _ fault | method _ _ _ fault => some fault
  | _ => none

/-- **Cause** below a failure: the message of its fault. -/
def cause? (f : Failure) : Option String :=
  f.fault?.map Fault.message

end Failure

end Hotpatch
