import Hotpatch.Module

/-! # Selection

Which methods of a module get a preamble. Markers on types and methods decide.

* **`MarkerNames`** — the names of the markers.
* **`MarkerNames.decide`** — the decision on a method, with the reason if it is left out.
* **`Module.select`** — the methods to patch, and those whose markers look like a mistake. -/

namespace Hotpatch

/-- The **names of the markers**. -/
structure MarkerNames where
  /-- On a type: patch all its methods. -/
  instrumentAll : String
  /-- On a method: patch it. -/
  instrument : String
  /-- On a method of a type that is patched as a whole: leave it alone. -/
  ignore : String
  /-- On a module: it has been patched. -/
  injected : String
deriving Repr, DecidableEq, Inhabited

/-- The names used **unless told otherwise**. -/
def MarkerNames.standard : MarkerNames :=
  ⟨"HotfixAll", "Hotfix", "HotfixIgnore", "HotfixInjected"⟩

/-- The **decision** on a method. -/
inductive Decision where
  | included
  /-- Constructors are never patched. -/
  | constructor
  /-- There is no code to patch. -/
  | noBody
  /-- Marked as an exception in a type that is patched as a whole. -/
  | ignored
  /-- Marked as an exception though nothing asked for it to be patched. -/
  | strayIgnore
  | notMarked
deriving Repr, DecidableEq, Inhabited

namespace MarkerNames

/-- **Decide** on a method of a type. -/
def decide (markers : MarkerNames) (owner : TypeDef) (method : MethodDef) : Decision :=
  if method.isConstructor then .constructor
  else if method.body?.isNone then .noBody
  else if owner.hasMarker markers.instrumentAll then
    if method.hasMarker markers.ignore then .ignored else .included
  else if method.hasMarker markers.instrument then .included
  else if method.hasMarker markers.ignore then .strayIgnore
  else .notMarked

/-- The decision on a **site**. -/
def decideSite (markers : MarkerNames) (site : Site) : Decision :=
  markers.decide site.owner site.method

end MarkerNames

/-- A **selection** of methods, in the order of declaration. -/
structure Selection where
  methods : List Site
  /-- The methods with an exception that is none. -/
  anomalies : List Site
deriving Repr, DecidableEq, Inhabited

/-- **Select** the methods of a module. -/
def Module.select (m : Module) (markers : MarkerNames) : Selection where
  methods := m.sites.filter (markers.decideSite · == .included)
  anomalies := m.sites.filter (markers.decideSite · == .strayIgnore)

end Hotpatch
