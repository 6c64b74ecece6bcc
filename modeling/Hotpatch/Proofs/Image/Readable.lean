import Hotpatch.Proofs.Code.Decoded
import Hotpatch.Proofs.Image.Shape

/-! # Modules that are read

What a module is like that was read from any image.

* **`Body.Fresh`** — bodies as they are read: settled, with operands among the tokens, and without
  points.
* **`fresh_of_readBody`**, **`fresh_of_readMethod`**, **`fresh_of_readType`** — such bodies are read,
  and all that is around them fits.
* **`ModuleImage.fresh_of_read`** — the same for whole images. -/

namespace Hotpatch

open Bounded (Fits)

/-- A **fresh** body, as it is read with some tokens. -/
structure Body.Fresh (tokens : TokenTable) (b : Body) : Prop where
  settled : b.Settled
  names : ∀ placed ∈ b.code, tokens.Names placed.instruction.operands
  noPoints : b.points = []

variable {tokens : TokenTable}

/-- An instruction fits if its operand is named by tokens that fit. -/
theorem Instruction.fits_of_names {L : Type} {i : Instruction L} (fits : Fits tokens)
    (names : tokens.Names i.operands) : Fits i := by
  obtain ⟨⟨-, strings⟩, ⟨-, types⟩, -, methods⟩ := fits
  cases i with
  | invoke op method => exact methods method (List.mem_of_mem_take (names.methods List.mem_cons_self))
  | typed op type => exact types type (List.mem_of_mem_take (names.types List.mem_cons_self))
  | ldstr text => exact strings text (List.mem_of_mem_take (names.strings List.mem_cons_self))
  | _ => trivial

/-- **A body that is read** is fresh and fits. -/
theorem fresh_of_readBody (fits : Fits tokens) {b : Body} {cut : CutCode}
    (yields : (readBody tokens).Yields (b, cut)) : b.Fresh tokens ∧ Fits b := by
  obtain ⟨maxStack, -, yields⟩ := yields.of_bind
  obtain ⟨initLocals, -, yields⟩ := yields.of_bind
  obtain ⟨locals, localsRead, yields⟩ := yields.of_bind
  obtain ⟨bytes, bytesRead, yields⟩ := yields.of_bind
  obtain ⟨decoded, decodes, returned⟩ := yields.of_bind
  obtain ⟨rfl, -⟩ := Prod.mk.inj returned.of_pure
  have short := length_lt_of_yields_bytes bytesRead
  obtain ⟨noPoints, sizes, made⟩ := Body.decodedFrom_of_decodeCode short decodes.of_attempt
  obtain ⟨⟨handles, current, targets, points⟩, within⟩ := made.settled noPoints
  refine ⟨⟨⟨⟨handles, current, targets, points⟩, within⟩, fun placed mem => made.names mem, noPoints⟩,
    fits_of_yields _ localsRead, ?_, ?_⟩
  · show decoded.body.points.length < 4294967296
    rw [noPoints]
    exact Nat.succ_pos _
  · exact fun placed mem => Instruction.fits_of_names fits (made.names mem)

/-- **A method that is read** fits, and its body is fresh. -/
theorem fresh_of_readMethod (fits : Fits tokens) {method : MethodDef} {cut? : Option CutCode}
    (yields : (readMethod tokens).Yields (method, cut?)) :
    Fits method ∧ ∀ b, method.body? = some b → b.Fresh tokens := by
  obtain ⟨name, nameRead, yields⟩ := yields.of_bind
  obtain ⟨attributes, -, yields⟩ := yields.of_bind
  obtain ⟨parameters, parametersRead, yields⟩ := yields.of_bind
  obtain ⟨returnType, returnTypeRead, yields⟩ := yields.of_bind
  obtain ⟨markers, markersRead, yields⟩ := yields.of_bind
  obtain ⟨hasBody, -, yields⟩ := yields.of_bind
  -- All but the body is the same for methods with and without one.
  have head {body? : Option Body} (bodyFits : Fits body?) :
      Fits (⟨name, attributes, parameters, returnType, markers, body?⟩ : MethodDef) :=
    ⟨fits_of_yields _ nameRead, fits_of_yields _ parametersRead, fits_of_yields _ returnTypeRead,
      fits_of_yields _ markersRead, bodyFits⟩
  cases hasBody with
  | false =>
    obtain ⟨rfl, -⟩ := Prod.mk.inj yields.of_pure
    exact ⟨head nofun, nofun⟩
  | true =>
    obtain ⟨⟨b, cut⟩, bodyRead, returned⟩ := Reader.Yields.of_bind yields
    obtain ⟨rfl, -⟩ := Prod.mk.inj returned.of_pure
    obtain ⟨fresh, bodyFits⟩ := fresh_of_readBody fits bodyRead
    refine ⟨head fun other same => ?_, fun other same => ?_⟩
    · exact Option.some.inj same ▸ bodyFits
    · exact Option.some.inj same ▸ fresh

/-- **A type that is read** fits, and its bodies are fresh. -/
theorem fresh_of_readType (fits : Fits tokens) {t : TypeDef} {cuts : List (Option CutCode)}
    (yields : (readType tokens).Yields (t, cuts)) : Fits t ∧ ∀ b ∈ t.bodies, b.Fresh tokens := by
  obtain ⟨namespaceName, namespaceRead, yields⟩ := yields.of_bind
  obtain ⟨name, nameRead, yields⟩ := yields.of_bind
  obtain ⟨attributes, -, yields⟩ := yields.of_bind
  obtain ⟨markers, markersRead, yields⟩ := yields.of_bind
  obtain ⟨count, countRead, yields⟩ := yields.of_bind
  obtain ⟨methods, methodsRead, returned⟩ := yields.of_bind
  obtain ⟨rfl, -⟩ := Prod.mk.inj returned.of_pure
  obtain ⟨rfl, each⟩ := methodsRead.of_times
  have methods : ∀ method ∈ methods.map (·.1),
      Fits method ∧ ∀ b, method.body? = some b → b.Fresh tokens := by
    intro method mem
    obtain ⟨read, here, rfl⟩ := List.mem_map.mp mem
    exact fresh_of_readMethod fits (each read here)
  refine ⟨⟨fits_of_yields _ namespaceRead, fits_of_yields _ nameRead, fits_of_yields _ markersRead, ?_,
    fun method mem => (methods method mem).1⟩, fun b mem => ?_⟩
  · rw [List.length_map]
    exact lt_of_yields_length countRead
  · obtain ⟨method, inType, has⟩ := List.mem_filterMap.mp mem
    exact (methods method inType).2 b has

/-- **An image that is read** has a module without a document in which all lists fit and all bodies
are fresh with the same tokens. -/
theorem ModuleImage.fresh_of_read {image : ModuleImage} (yields : ModuleImage.read.Yields image) :
    (Fits image.module.name ∧ Fits image.module.references ∧ Fits image.module.markers
      ∧ Fits image.module.types) ∧ image.module.document? = none
      ∧ ∃ tokens, ∀ b ∈ image.module.bodies, b.Fresh tokens := by
  obtain ⟨_, -, yields⟩ := yields.of_bind
  obtain ⟨version, -, yields⟩ := yields.of_bind
  by_cases supported : version ≠ imageVersion
  · rw [if_pos supported] at yields
    obtain ⟨_, failed, -⟩ := Reader.Yields.of_bind yields
    exact absurd failed Reader.not_yields_fail
  rw [if_neg supported] at yields
  obtain ⟨name, nameRead, yields⟩ := Reader.Yields.of_bind yields
  obtain ⟨references, referencesRead, yields⟩ := yields.of_bind
  obtain ⟨markers, markersRead, yields⟩ := yields.of_bind
  obtain ⟨tokens, tokensRead, yields⟩ := yields.of_bind
  obtain ⟨count, countRead, yields⟩ := yields.of_bind
  obtain ⟨types, typesRead, returned⟩ := yields.of_bind
  obtain rfl := returned.of_pure
  obtain ⟨rfl, each⟩ := typesRead.of_times
  have tokensFit := fits_of_yields _ tokensRead
  have types : ∀ t ∈ types.map (·.1), Fits t ∧ ∀ b ∈ t.bodies, b.Fresh tokens := by
    intro t mem
    obtain ⟨read, here, rfl⟩ := List.mem_map.mp mem
    exact fresh_of_readType tokensFit (each read here)
  refine ⟨⟨fits_of_yields _ nameRead, fits_of_yields _ referencesRead, fits_of_yields _ markersRead, ?_,
    fun t mem => (types t mem).1⟩, rfl, tokens, fun b mem => ?_⟩
  · rw [List.length_map]
    exact lt_of_yields_length countRead
  · obtain ⟨t, inModule, inType⟩ := List.mem_flatMap.mp mem
    exact (types t inModule).2 b inType

end Hotpatch
