import Hotpatch.Proofs.Image.RoundTrip
import Hotpatch.Proofs.Metadata.Occurrences

/-! # Tokens of images

Writing a module leaves a table with all operands of its code, each of which has a token that stands for
it as long as there are not too many.

* **`Module.assembles_writeTypes`** — the operands that are interned while the types are written.
* **`tokens_resolve_iff`** — when tokens stand for what they were handed out for.
* **`tokens_enumerate_operands`** — the rows of the table: the operands of the code, as they first occur. -/

namespace Hotpatch

open TokenTable

variable {m : Module} {bytes : List UInt8}

/-! ## (1) Writing -/

/-- Writing a body interns what encoding it does. -/
theorem Body.assembles_write {b : Body} (encode : b.encode.Assembles b.operands fun _ _ => True) :
    b.write.Assembles b.operands fun _ _ => True :=
  encode.bind_pure fun _ _ _ => trivial

/-- Writing a method interns the operands of its body. -/
theorem MethodDef.assembles_write {method : MethodDef}
    (each : ∀ b, method.body? = some b → b.encode.Assembles b.operands fun _ _ => True) :
    method.write.Assembles method.operands fun _ _ => True := by
  have body : (writeBody? method.body?).Assembles method.operands fun _ _ => True := by
    rw [operands]
    cases has : method.body? with
    | none => exact Assembler.assembles_pure fun _ => trivial
    | some b => exact (Body.assembles_write (each b has)).bind_pure fun _ _ _ => trivial
  exact body.bind_pure fun _ _ _ => trivial

/-- Writing a type interns the operands of its methods. -/
theorem TypeDef.assembles_write {t : TypeDef}
    (each : ∀ b ∈ t.bodies, b.encode.Assembles b.operands fun _ _ => True) :
    t.write.Assembles t.operands fun _ _ => True := by
  have methods := Assembler.Assembles.mapM fun method mem =>
    MethodDef.assembles_write fun b has => each b (mem_bodies mem has)
  exact methods.bind_pure fun _ _ _ => trivial

/-- **Writing the types** of a module interns the operands of its code, as encoding each body does. -/
theorem Module.assembles_writeTypes_of_forall
    (each : ∀ b ∈ m.bodies, b.encode.Assembles b.operands fun _ _ => True) :
    m.writeTypes.Assembles m.operands fun _ _ => True := by
  have types := Assembler.Assembles.mapM fun t mem =>
    TypeDef.assembles_write fun b inside => each b (mem_bodies mem inside)
  exact types.bind_pure fun _ _ _ => trivial

/-- What is listed among the operands of a list is so among those of a member. -/
@[simp]
theorem TokenTable.listed_collect {α : Type} {operands : α → TokenTable} {xs : List α} {r : Request} :
    r.Listed (collect operands xs) ↔ ∃ x ∈ xs, r.Listed (operands x) := by
  cases r <;> exact List.mem_flatMap

/-- **The operands of a module** are those of the instructions of its bodies. -/
@[simp] theorem Module.listed_operands {r : Request} : r.Listed m.operands
    ↔ ∃ b ∈ m.bodies, ∃ placed ∈ b.code, r.Listed placed.instruction.operands := by
  rw [operands, listed_collect]
  constructor
  · rintro ⟨t, inModule, listed⟩
    obtain ⟨method, inType, listed⟩ := listed_collect.mp listed
    rw [MethodDef.operands] at listed
    cases has : method.body? with
    | none =>
      rw [has] at listed
      cases r <;> cases listed
    | some b =>
      rw [has] at listed
      exact ⟨b, mem_bodies inModule (TypeDef.mem_bodies inType has), listed_collect.mp listed⟩
  · rintro ⟨b, mem, inCode⟩
    obtain ⟨t, inModule, inside⟩ := List.mem_flatMap.mp mem
    obtain ⟨method, inType, has⟩ := List.mem_filterMap.mp inside
    refine ⟨t, inModule, listed_collect.mpr ⟨method, inType, ?_⟩⟩
    rw [MethodDef.operands, has]
    exact listed_collect.mpr inCode

/-- **The tables that are written** have the operands of the code for rows: of each kind those that occur in
some body, each of them once and where it first occurs in the order of types, methods and layouts. A table
that answers requests has for rows what was asked for, likewise; equal requests get equal tokens, each that of
its row, and what was in a table before stays where it is. -/
theorem tokens_enumerate_operands (written : m.write = .ok bytes) :
    (∃ types table, m.writeTypes.run .empty = .ok (types, table)
      ∧ bytes = imageMagic ++ Binary.write imageVersion ++ Binary.write m.name
        ++ Binary.write m.references ++ Binary.write m.markers ++ Binary.write table ++ types
      ∧ table.Enumerates m.operands
      ∧ ∀ r : Request, r.Listed table
        ↔ ∃ b ∈ m.bodies, ∃ placed ∈ b.code, r.Listed placed.instruction.operands)
    ∧ ∀ rs : List Request, (answer rs .empty).2.Enumerates (requested rs)
      ∧ ∀ t : TokenTable, t.Grows (answer rs t).2
        ∧ (∀ operands, t.Enumerates operands
          → (answer rs t).2.Enumerates (operands.append (requested rs)))
        ∧ (answer rs t).1 = rs.map (fun r => Token.ofRow r.table (r.row (answer rs t).2))
        ∧ ∀ i j : Nat, rs[i]? = rs[j]? → (answer rs t).1[i]? = (answer rs t).1[j]? := by
  refine ⟨?_, fun rs => ⟨enumerates_empty.answer rs, fun t => ⟨?_, ?_, answer_fst_eq_map rs t, ?_⟩⟩⟩
  · obtain ⟨⟨types, table⟩, wrote, whole⟩ := Attempt.bind_eq_ok_iff.mp written
    -- Bodies intern their operands whether they are well formed or not.
    have interns := Module.assembles_writeTypes_of_forall fun b (_ : b ∈ m.bodies) => b.interns_encode
    obtain ⟨rfl, -⟩ := interns _ _ _ wrote
    have enumerates := enumerates_empty.extend m.operands
    exact ⟨types, _, wrote, (Except.ok.inj whole).symm, enumerates, fun r =>
      (enumerates.listed_iff r).trans Module.listed_operands⟩
  · rw [answer_snd]
    exact grows_extend _ _
  · exact fun operands enumerates => enumerates.answer rs
  · intro i j (same : rs[i]? = rs[j]?)
    rw [answer_fst_eq_map, List.getElem?_map, List.getElem?_map, same]

/-- A module whose code names some strings, types and methods again, in the same body and in another. -/
def Module.repetitive : Module :=
  let element : TypeSig := .builtin .int32
  let log : MethodRef := ⟨"Demo.Log", "Write", ⟨false, [.object], .void⟩⟩
  let method (name : String) (code : List Placed) : MethodDef :=
    { name, attributes := ⟨0⟩, parameters := [], returnType := .void, markers := []
      body? := some { maxStack := 8, initLocals := false, locals := [], points := [], code } }
  { name := "Demo"
    references := []
    markers := []
    types := [
      ⟨"Demo", "First", .visible, [], [
        method "fill" [⟨⟨0⟩, 0, .ldstr "b"⟩, ⟨⟨1⟩, 5, .ldstr "a"⟩, ⟨⟨2⟩, 10, .typed .newarr element⟩,
          ⟨⟨3⟩, 15, .ldstr "a"⟩],
        { method "missing" [] with body? := none }]⟩,
      ⟨"Demo", "Second", .visible, [], [
        method "log" [⟨⟨0⟩, 0, .ldstr "c"⟩, ⟨⟨1⟩, 5, .typed .box element⟩, ⟨⟨2⟩, 10, .invoke .call log⟩,
          ⟨⟨3⟩, 15, .ldstr "b"⟩]]⟩]
    document? := none }

/-- The table of that module has three strings, one type and one method; three requests for strings are
answered with tokens of two rows. -/
theorem tokens_enumerate_operands_repetitive :
    (∃ bytes types, Module.repetitive.write = .ok bytes
      ∧ bytes = imageMagic ++ Binary.write imageVersion ++ Binary.write "Demo" ++ Binary.write ([] : List String)
        ++ Binary.write ([] : List String)
        ++ Binary.write (⟨["b", "a", "c"], [.builtin .int32],
          [⟨"Demo.Log", "Write", ⟨false, [.object], .void⟩⟩]⟩ : TokenTable)
        ++ types)
    ∧ let rs : List Request := [.string "a", .type .void, .string "b", .string "a"]
      (answer rs .empty).2.Enumerates ⟨["a", "b", "a"], [.void], []⟩
        ∧ (answer rs .empty).1 = [⟨0x70000001⟩, ⟨0x1b000001⟩, ⟨0x70000002⟩, ⟨0x70000001⟩]
        ∧ (answer rs .empty).1[0]? = (answer rs .empty).1[3]? := by
  have wf : Module.repetitive.WellFormed := by
    intro b mem
    obtain rfl | mem := List.mem_cons.mp mem
    · exact ⟨by decide, by decide⟩
    · obtain rfl := List.mem_singleton.mp mem
      exact ⟨by decide, by decide⟩
  obtain ⟨bytes, written⟩ :=
    (Module.exists_write_iff wf).mpr (show Module.repetitive.fault? = none by decide)
  obtain ⟨⟨types, table, -, whole, enumerates, -⟩, handedOut⟩ := tokens_enumerate_operands written
  constructor
  · -- There is one table that enumerates the operands, and interning them computes it.
    obtain rfl := enumerates.unique (enumerates_empty.extend Module.repetitive.operands)
    exact ⟨bytes, types, written, whole⟩
  · intro rs
    obtain ⟨fromEmpty, each⟩ := handedOut rs
    obtain ⟨-, -, -, equal⟩ := each .empty
    exact ⟨fromEmpty, by decide, equal 0 3 rfl⟩

end Hotpatch
