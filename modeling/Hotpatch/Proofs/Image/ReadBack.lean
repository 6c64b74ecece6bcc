import Hotpatch.Proofs.Image.Shape

/-! # Reading back images

An image that was written is read as the module with renumbered bodies, but for the debug data that
images do not hold.

* **`Assembler.Writes`** — a step whose bytes are read as a value by everyone with its tokens.
* **`writes_body`**, **`writes_method`**, **`writes_type`** — what the parts of a module are read as.
* **`Module.imaged`** — what a module is read as.
* **`Module.reads_of_write`** — the image of a well-formed module is read as that. -/

namespace Hotpatch

open Binary (read write)
open Bounded (Fits)

/-! ## (1) Steps that write -/

namespace Assembler

variable {α β : Type}

/-- A step **writes** a value for readers if it assembles operands to bytes that are read as the value
with all tables that its own grows into, as long as these are small. -/
def Writes (x : Assembler (List UInt8)) (operands : TokenTable) (reader : TokenTable → Reader α)
    (value : α) : Prop :=
  x.Assembles operands fun u bytes => u.Small → (reader u).Reads bytes value

/-- **A list of steps that write** gives chunks that are read as the list. -/
theorem Writes.mapM {f : β → Assembler (List UInt8)} {operands : β → TokenTable}
    {reader : TokenTable → Reader α} {value : β → α} {xs : List β}
    (each : ∀ x ∈ xs, (f x).Writes (operands x) reader (value x)) :
    (xs.mapM f).Assembles (.collect operands xs) fun u chunks =>
      u.Small → (Reader.times xs.length (reader u)).Reads chunks.flatten (xs.map value) := by
  have all : (xs.mapM f).Assembles (.collect operands xs) fun u =>
      List.Forall₂ (fun x chunk => u.Small → (reader u).Reads chunk (value x)) xs :=
    Assembles.mapM each
  refine all.imp fun u chunks written small => ?_
  have reads : List.Forall₂ (reader u).Reads chunks (xs.map value) := by
    rw [List.forall₂_map_right_iff]
    exact written.flip.imp fun chunk x read => read small
  have times := Reader.reads_times reads
  rwa [List.length_map] at times

end Assembler

/-! ## (2) Bodies and methods -/

/-- A body **as imaged**: renumbered, and without points. -/
def Body.imaged (b : Body) : Body :=
  { b.renumber with points := [] }

/-- **A well-formed body** is read as its image, with its cut. -/
theorem writes_body {b : Body} (wf : b.WellFormed) (fits : Fits b) :
    b.write.Writes b.operands readBody (b.imaged, b.cut) := by
  refine wf.assembles_encode.bind_pure ?_
  rintro u code ⟨current, size, chunks, rfl, written⟩ small
  -- The code is not too large, so that its length fits into four bytes.
  have length : chunks.flatten.length < 4294967296 := by
    rw [Body.codeSize_eq current, Body.maxCodeSize] at size
    rw [Body.length_of_written written]
    omega
  have decoded := wf.decodeCode_of_written current small size written
  rw [List.append_assoc, List.append_assoc]
  refine (reads_write b.maxStack trivial).bind ((reads_write b.initLocals trivial).bind
    ((reads_write b.locals fits.1).bind fun rest => ?_))
  refine (Step.bind_of_ok (reads_bytes length rest)).trans ?_
  rw [decoded]
  rfl

/-- **A method** whose body is well formed is read as its image, with the cut. -/
theorem writes_method {m : MethodDef} (wf : ∀ b, m.body? = some b → b.WellFormed) (fits : Fits m) :
    m.write.Writes m.operands readMethod (m.mapBody Body.imaged, m.body?.map Body.cut) := by
  obtain ⟨name, attributes, parameters, returnType, markers, body?⟩ := m
  obtain ⟨nameFits, parametersFit, returnTypeFits, markersFit, bodyFits⟩ := fits
  -- What follows the markers is read as the body that goes with what was read before.
  have body : (writeBody? body?).Writes
      (MethodDef.operands ⟨name, attributes, parameters, returnType, markers, body?⟩) (fun u => do
        if ← (read : Reader Bool) then
          let found ← readBody u
          return (⟨name, attributes, parameters, returnType, markers, some found.1⟩, some found.2)
        else return (⟨name, attributes, parameters, returnType, markers, none⟩, none))
      (MethodDef.mapBody Body.imaged ⟨name, attributes, parameters, returnType, markers, body?⟩,
        body?.map Body.cut) := by
    cases body? with
    | none =>
      refine Assembler.assembles_pure fun u small rest => ?_
      exact Step.bind_of_ok (reads_write false trivial rest)
    | some b =>
      refine (writes_body (wf b rfl) (bodyFits b rfl)).bind_pure fun u bytes reads small => ?_
      exact (reads_write true trivial).bind ((reads small).bind_pure _)
  refine body.bind_pure fun u bytes reads small => ?_
  rw [List.append_assoc, List.append_assoc, List.append_assoc, List.append_assoc]
  exact (reads_write name nameFits).bind ((reads_write attributes trivial).bind
    ((reads_write parameters parametersFit).bind ((reads_write returnType returnTypeFits).bind
      ((reads_write markers markersFit).bind (reads small)))))

/-- **A type** whose bodies are well formed is read as its image, with the cuts. -/
theorem writes_type {t : TypeDef} (wf : ∀ b ∈ t.bodies, b.WellFormed) (fits : Fits t) :
    t.write.Writes t.operands readType
      (t.mapBodies Body.imaged, t.methods.map fun method => method.body?.map Body.cut) := by
  obtain ⟨namespaceFits, nameFits, markersFit, methodsFit⟩ := fits
  have methods := Assembler.Writes.mapM fun method mem =>
    writes_method (fun b has => wf b (TypeDef.mem_bodies mem has)) (methodsFit.2 method mem)
  refine methods.bind_pure fun u chunks reads small => ?_
  rw [List.append_assoc, List.append_assoc, List.append_assoc, List.append_assoc]
  have value : (t.mapBodies Body.imaged, t.methods.map fun method => method.body?.map Body.cut)
      = (⟨t.namespaceName, t.name, t.attributes, t.markers,
          (t.methods.map fun method => (method.mapBody Body.imaged, method.body?.map Body.cut)).map (·.1)⟩,
        (t.methods.map fun method => (method.mapBody Body.imaged, method.body?.map Body.cut)).map
          (·.2)) := by
    rw [List.map_map, List.map_map]
    rfl
  rw [value]
  exact (reads_write t.namespaceName namespaceFits).bind ((reads_write t.name nameFits).bind
    ((reads_write t.attributes trivial).bind ((reads_write t.markers markersFit).bind
      ((reads_length methodsFit.1).bind ((reads small).bind_pure _)))))

/-! ## (3) Modules -/

/-- A module **as imaged**: with all bodies renumbered, without debug data, and with the cuts of its
bodies. -/
def Module.imaged (m : Module) : ModuleImage :=
  ⟨{ m.mapBodies Body.imaged with document? := none },
    m.types.map fun t => t.methods.map fun method => method.body?.map Body.cut⟩

/-- **Reading an image** that was written, in front of any bytes, gives the module as imaged and
leaves these bytes. -/
theorem Module.reads_of_write {m : Module} {bytes : List UInt8} (wf : m.WellFormed) (fits : Fits m)
    (small : (TokenTable.empty.extend m.operands).Small) (written : m.write = .ok bytes) :
    ModuleImage.read.Reads bytes m.imaged := by
  obtain ⟨nameFits, referencesFit, markersFit, typesFit, -, -⟩ := fits
  obtain ⟨⟨types, tokens⟩, wrote, whole⟩ := Attempt.bind_eq_ok_iff.mp written
  have parts := Assembler.Writes.mapM fun t mem =>
    writes_type (fun b inside => wf b (Module.mem_bodies mem inside)) (typesFit.2 t mem)
  have value : m.imaged = ⟨⟨m.name, m.references, m.markers,
      (m.types.map fun t => (t.mapBodies Body.imaged,
        t.methods.map fun method => method.body?.map Body.cut)).map (·.1), none⟩,
      (m.types.map fun t => (t.mapBodies Body.imaged,
        t.methods.map fun method => method.body?.map Body.cut)).map (·.2)⟩ := by
    rw [List.map_map, List.map_map]
    rfl
  have all : m.writeTypes.Writes m.operands (fun u => do
      let types ← Reader.times (← readLength) (readType u)
      return ⟨⟨m.name, m.references, m.markers, types.map (·.1), none⟩, types.map (·.2)⟩) m.imaged := by
    rw [value]
    exact parts.bind_pure fun u chunks reads small =>
      (reads_length typesFit.1).bind ((reads small).bind_pure _)
  -- The table that is written in front is the one the code leaves behind.
  obtain ⟨rfl, reads⟩ := all _ _ _ wrote
  have typesRead := reads _ (TokenTable.Grows.refl _) small
  have tokensFit := TokenTable.fits_extend_empty (Module.membersFit_operands typesFit) small
  obtain rfl := Except.ok.inj whole
  have magic : (readMagic imageMagic).Reads imageMagic () := reads_magic rfl
  simp only [List.append_assoc]
  refine magic.bind ((reads_write imageVersion trivial).bind ?_)
  rw [if_neg (not_not_intro rfl)]
  exact (reads_write m.name nameFits).bind ((reads_write m.references referencesFit).bind
    ((reads_write m.markers markersFit).bind ((reads_write _ tokensFit).bind typesRead)))

end Hotpatch
