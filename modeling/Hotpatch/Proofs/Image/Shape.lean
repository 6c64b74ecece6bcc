import Hotpatch.Image.Symbols
import Hotpatch.Proofs.Code.DecodeBack

/-! # The bodies of a module

What is said of a module by saying it of its bodies.

* **`Module.bodies`** — all bodies, in the order of declaration.
* **`Module.mapBodies`**, **`Module.renumber`** — a module with other bodies, and everything else as
  it is.
* **`Module.WellFormed`**, **`Module.operands`** — the invariant of the bodies, and what their code
  names by tokens.
* **`Bounded`** instances — the modules in which nothing is too long to be written. -/

namespace Hotpatch

open Bounded (Fits)

/-! ## (1) Bodies -/

/-- A method with **another body**, if it has one. -/
def MethodDef.mapBody (f : Body → Body) (m : MethodDef) : MethodDef :=
  { m with body? := m.body?.map f }

/-- A type with **other bodies**. -/
def TypeDef.mapBodies (f : Body → Body) (t : TypeDef) : TypeDef :=
  { t with methods := t.methods.map (·.mapBody f) }

/-- The **bodies** of a type. -/
def TypeDef.bodies (t : TypeDef) : List Body :=
  t.methods.filterMap (·.body?)

namespace Module

/-- The **bodies** of a module, in the order of declaration. -/
def bodies (m : Module) : List Body :=
  m.types.flatMap (·.bodies)

/-- A module with **other bodies**. -/
def mapBodies (f : Body → Body) (m : Module) : Module :=
  { m with types := m.types.map (·.mapBodies f) }

/-- **Renumber** all bodies: their handles become positions of the layout. -/
def renumber (m : Module) : Module :=
  m.mapBodies Body.renumber

/-- **Well formed**: all bodies are. -/
def WellFormed (m : Module) : Prop :=
  ∀ b ∈ m.bodies, b.WellFormed

end Module

variable {α : Type} {m : Module} {t : TypeDef} {method : MethodDef} {b : Body}

/-- The body of a method of a type is among the bodies of the type. -/
theorem TypeDef.mem_bodies (mem : method ∈ t.methods) (has : method.body? = some b) :
    b ∈ t.bodies :=
  List.mem_filterMap.mpr ⟨method, mem, has⟩

/-- The bodies of a type of a module are among the bodies of the module. -/
theorem Module.mem_bodies (mem : t ∈ m.types) (inside : b ∈ t.bodies) : b ∈ m.bodies :=
  List.mem_flatMap.mpr ⟨t, mem, inside⟩

/-- Bodies that are replaced by themselves leave a method as it is. -/
theorem MethodDef.mapBody_eq_self {f : Body → Body}
    (same : ∀ b, method.body? = some b → f b = b) : method.mapBody f = method := by
  have body : method.body?.map f = method.body? := by
    cases has : method.body? with
    | none => rfl
    | some b => rw [Option.map_some, same b has]
  rw [mapBody, body]

/-- Bodies that are replaced by themselves leave a module as it is. -/
theorem Module.mapBodies_eq_self {f : Body → Body} (same : ∀ b ∈ m.bodies, f b = b) :
    m.mapBodies f = m := by
  have types : m.types.map (·.mapBodies f) = m.types := by
    refine (List.map_congr_left fun t mem => ?_).trans (List.map_id m.types)
    have methods : t.methods.map (·.mapBody f) = t.methods := by
      refine (List.map_congr_left fun method inside => ?_).trans (List.map_id t.methods)
      exact MethodDef.mapBody_eq_self fun b has =>
        same b (Module.mem_bodies mem (TypeDef.mem_bodies inside has))
    rw [TypeDef.mapBodies, methods]
    rfl
  rw [mapBodies, types]

/-! ## (2) Operands -/

/-- The **operands** of a method. -/
def MethodDef.operands (m : MethodDef) : TokenTable :=
  match m.body? with
  | some body => body.operands
  | none => .empty

/-- The **operands** of a type. -/
def TypeDef.operands (t : TypeDef) : TokenTable :=
  .collect MethodDef.operands t.methods

/-- The **operands** of the code of a module: the strings, types and methods that it names by tokens,
each as often as it does. -/
def Module.operands (m : Module) : TokenTable :=
  .collect TypeDef.operands m.types

/-! ## (3) Lengths -/

instance [Bounded α] : Bounded (Option α) := ⟨fun o => ∀ x, o = some x → Fits x⟩

/-- An instruction fits if its operand does. -/
instance {L : Type} : Bounded (Instruction L) where
  Fits
    | .invoke _ method => Fits method
    | .typed _ type => Fits type
    | .ldstr text => Fits text
    | _ => True

/-- A body fits if its locals, its operands and the number of its points do. -/
instance : Bounded Body where
  Fits b := Fits b.locals ∧ b.points.length < 4294967296 ∧ ∀ placed ∈ b.code, Fits placed.instruction

/-- A method fits if all of its parts do. -/
instance : Bounded MethodDef where
  Fits m := Fits m.name ∧ Fits m.parameters ∧ Fits m.returnType ∧ Fits m.markers ∧ Fits m.body?

/-- A type fits if all of its parts do. -/
instance : Bounded TypeDef where
  Fits t := Fits t.namespaceName ∧ Fits t.name ∧ Fits t.markers ∧ Fits t.methods

/-- A module fits if all of its parts do, and there are not too many methods with points. -/
instance : Bounded Module where
  Fits m := Fits m.name ∧ Fits m.references ∧ Fits m.markers ∧ Fits m.types ∧ Fits m.document?
    ∧ m.pointed.length < 4294967296

/-- All values in a token table **fit**. -/
structure TokenTable.MembersFit (t : TokenTable) : Prop where
  strings : ∀ text ∈ t.strings, Fits text
  types : ∀ type ∈ t.types, Fits type
  methods : ∀ method ∈ t.methods, Fits method

/-- The operands of a list fit if those of each member do. -/
theorem TokenTable.membersFit_collect {operands : α → TokenTable} {xs : List α}
    (each : ∀ x ∈ xs, (operands x).MembersFit) : (TokenTable.collect operands xs).MembersFit := by
  refine ⟨fun text mem => ?_, fun type mem => ?_, fun method mem => ?_⟩
  · obtain ⟨x, here, found⟩ := List.mem_flatMap.mp mem
    exact (each x here).strings text found
  · obtain ⟨x, here, found⟩ := List.mem_flatMap.mp mem
    exact (each x here).types type found
  · obtain ⟨x, here, found⟩ := List.mem_flatMap.mp mem
    exact (each x here).methods method found

/-- A small table of operands that fit can be written. -/
theorem TokenTable.fits_extend_empty {operands : TokenTable} (members : operands.MembersFit)
    (small : (empty.extend operands).Small) : Fits (empty.extend operands) := by
  have each {α : Type} [DecidableEq α] [Bounded α] {values : List α}
      (fits : ∀ value ∈ values, Fits value) (few : (internAll [] values).length < 16777216) :
      Fits (internAll [] values) := by
    refine ⟨by omega, fun value mem => ?_⟩
    rw [mem_internAll] at mem
    exact fits value (mem.resolve_left List.not_mem_nil)
  exact ⟨each members.strings small.strings, each members.types small.types,
    each members.methods small.methods⟩

/-- The operand of an instruction that fits does. -/
theorem Instruction.membersFit_operands {L : Type} {i : Instruction L} (fits : Fits i) :
    i.operands.MembersFit := by
  cases i with
  | invoke op method => exact ⟨nofun, nofun, List.forall_mem_singleton.mpr fits⟩
  | typed op type => exact ⟨nofun, List.forall_mem_singleton.mpr fits, nofun⟩
  | ldstr text => exact ⟨List.forall_mem_singleton.mpr fits, nofun, nofun⟩
  | _ => exact ⟨nofun, nofun, nofun⟩

/-- The operands of a module that fits do. -/
theorem Module.membersFit_operands {m : Module} (fits : Fits m.types) : m.operands.MembersFit := by
  refine TokenTable.membersFit_collect fun t inModule => ?_
  obtain ⟨-, -, -, methods⟩ := fits.2 t inModule
  refine TokenTable.membersFit_collect fun method inType => ?_
  obtain ⟨-, -, -, -, body⟩ := methods.2 method inType
  rw [MethodDef.operands]
  cases has : method.body? with
  | none => exact ⟨nofun, nofun, nofun⟩
  | some b =>
    obtain ⟨-, -, code⟩ := body b has
    exact TokenTable.membersFit_collect fun placed mem =>
      Instruction.membersFit_operands (code placed mem)

end Hotpatch
