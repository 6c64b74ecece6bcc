import Hotpatch.Proofs.Code.Acceptance
import Hotpatch.Proofs.Image.ReadSymbols

/-! # Code in images

The code of a module as its image has it, before any of it is decoded, and the instructions that start in it.
An image is read with this code, and symbols do not change it.

* **`ModuleImage.readCode`** — the bytes of all code in an image, and the tokens they refer to.
* **`PieceAt`** — the instruction at an index of some code, with the bytes it takes there.
* **`Reader.Refines`** — a reader that gives more than another, and takes the same bytes.
* **`ModuleImage.ComesFrom`** — the bodies and cuts of an image come from some code;
  `comesFrom_of_read` has it for the code that was read, `ComesFrom.readSymbols` after reading symbols.
* **`ComesFrom.handleAt?_eq_some_iff`**, **`ComesFrom.exists_body`** — an instruction is found where it started
  in the code, and it is the one that started there. -/

namespace Hotpatch

/-! ## (1) The code of an image -/

/-- The **code of an image**, as it is written there. -/
structure ImageCode where
  /-- What the operands refer to. -/
  tokens : TokenTable
  /-- The bytes of every method that has a body, type by type. -/
  bodies : List (List (Option (List UInt8)))

/-- The code **at a place**, if there is some. -/
def ImageCode.at? (code : ImageCode) (typeIndex methodIndex : Nat) : Option (List UInt8) :=
  (code.bodies[typeIndex]?.bind (·[methodIndex]?)).join

/-- The **piece at** an index of code that is cut to its end: an instruction and the bytes it takes there. -/
def PieceAt (tokens : TokenTable) (code : List UInt8) (index : Nat) (p : Piece) : Prop :=
  ∃ pieces, GreedyCut tokens 0 code pieces none ∧ pieces[index]? = some p

/-- Read the **code of a body**. -/
def readBodyCode : Reader (List UInt8) := do
  let _maxStack ← (Binary.read : Reader UInt16)
  let _initLocals ← (Binary.read : Reader Bool)
  let _locals ← (Binary.read : Reader (List TypeSig))
  readBytes

/-- Read the **code of a method**. -/
def readMethodCode : Reader (Option (List UInt8)) := do
  let _name ← (Binary.read : Reader String)
  let _attributes ← (Binary.read : Reader MethodAttributes)
  let _parameters ← (Binary.read : Reader (List Parameter))
  let _returnType ← (Binary.read : Reader TypeSig)
  let _markers ← (Binary.read : Reader (List String))
  if ← (Binary.read : Reader Bool) then return some (← readBodyCode)
  else return none

/-- Read the **code of a type**. -/
def readTypeCode : Reader (List (Option (List UInt8))) := do
  let _namespaceName ← (Binary.read : Reader String)
  let _name ← (Binary.read : Reader String)
  let _attributes ← (Binary.read : Reader TypeAttributes)
  let _markers ← (Binary.read : Reader (List String))
  Reader.times (← readLength) readMethodCode

/-- Read the **code of an image**. -/
def ModuleImage.readCode : Reader ImageCode := do
  readMagic imageMagic
  let version ← Binary.read
  if version ≠ imageVersion then Reader.fail (.unsupportedVersion version)
  let _name ← (Binary.read : Reader String)
  let _references ← (Binary.read : Reader (List String))
  let _markers ← (Binary.read : Reader (List String))
  let tokens ← Binary.read
  return ⟨tokens, ← Reader.times (← readLength) readTypeCode⟩

/-! ## (2) Readers side by side -/

namespace Reader

variable {α β γ δ : Type}

/-- A reader **refines** another if, whenever it gives a value, the other gives a related one for the same
bytes. -/
def Refines (related : α → β → Prop) (reader : Reader α) (other : Reader β) : Prop :=
  ∀ bytes value rest, reader bytes = .ok (value, rest) →
    ∃ value', other bytes = .ok (value', rest) ∧ related value value'

variable {related : α → β → Prop} {after : γ → δ → Prop} {reader : Reader α} {other : Reader β}

/-- Values that are only returned are related. -/
theorem refines_pure {value : α} {value' : β} (holds : related value value') :
    Refines related (pure value) (pure value') := by
  intro bytes found rest done
  obtain ⟨rfl, rfl⟩ := Prod.mk.inj (Except.ok.inj done)
  exact ⟨value', rfl, holds⟩

/-- **Chains refine** link by link. -/
theorem Refines.bind {next : α → Reader γ} {next' : β → Reader δ} (first : Refines related reader other)
    (rest : ∀ value value', related value value' → Refines after (next value) (next' value')) :
    Refines after (reader >>= next) (other >>= next') := by
  intro bytes last left done
  obtain ⟨value, between, head, tail⟩ := Step.bind_eq_ok_iff.mp done
  obtain ⟨value', head', holds⟩ := first bytes value between head
  obtain ⟨last', tail', follows⟩ := rest value value' holds between last left tail
  exact ⟨last', (Step.bind_of_ok head').trans tail', follows⟩

/-- A reader refines itself. -/
theorem refines_refl (reader : Reader α) : Refines Eq reader reader :=
  fun _ value _ done => ⟨value, done, rfl⟩

/-- Behind a link that both share, chains refine by their rests. -/
theorem refines_bind {next : α → Reader γ} {next' : α → Reader δ}
    (rest : ∀ value, Refines after (next value) (next' value)) :
    Refines after (reader >>= next) (reader >>= next') := by
  refine (refines_refl reader).bind fun value value' equal => ?_
  subst equal
  exact rest value

/-- A link that takes no bytes may be behind. -/
theorem Refines.bind_still {next : α → Reader γ} {after : γ → β → Prop} (first : Refines related reader other)
    (still : ∀ value value', related value value' → ∀ bytes last left,
      next value bytes = .ok (last, left) → left = bytes ∧ after last value') :
    Refines after (reader >>= next) other := by
  intro bytes last left done
  obtain ⟨value, between, head, tail⟩ := Step.bind_eq_ok_iff.mp done
  obtain ⟨value', head', holds⟩ := first bytes value between head
  obtain ⟨rfl, follows⟩ := still value value' holds between last left tail
  exact ⟨value', head', follows⟩

/-- A list refines another member by member, behind those that are done. -/
private theorem refines_timesOnto (each : Refines related reader other) (count : Nat) {done : List α}
    {done' : List β} (behind : List.Forall₂ related done done') :
    Refines (List.Forall₂ related) (timesOnto reader count done) (timesOnto other count done') := by
  induction count generalizing done done' with
  | zero => exact refines_pure (List.forall₂_reverse_iff.mpr behind)
  | succ count ih => exact each.bind fun value value' holds => ih (.cons holds behind)

/-- **Lists refine** member by member. -/
theorem Refines.times (each : Refines related reader other) (count : Nat) :
    Refines (List.Forall₂ related) (Reader.times count reader) (Reader.times count other) :=
  refines_timesOnto each count .nil

end Reader

/-! ## (3) Code that is decoded -/

/-- A body and its cut **come from** code: from none if they are missing, and otherwise they are as it is
decoded. -/
def FromCode (tokens : TokenTable) (body? : Option Body) (cut? : Option CutCode) : Option (List UInt8) → Prop
  | none => body? = none ∧ cut? = none
  | some code => ∃ body d, decodeCode tokens code = .ok d ∧ body? = some body ∧ body.code = d.body.code
    ∧ cut? = some d.cut

/-- A method comes from code if its body does. -/
def MethodFromCode (tokens : TokenTable) (read : MethodDef × Option CutCode) (code? : Option (List UInt8)) :
    Prop :=
  FromCode tokens read.1.body? read.2 code?

/-- A type comes from code if its methods do. -/
def TypeFromCode (tokens : TokenTable) (read : TypeDef × List (Option CutCode))
    (codes : List (Option (List UInt8))) : Prop :=
  ∃ methods, read.1.methods = methods.map (·.1) ∧ read.2 = methods.map (·.2)
    ∧ List.Forall₂ (MethodFromCode tokens) methods codes

open Reader (refines_bind refines_pure refines_refl)

/-- **Bodies are read from their code.** -/
theorem refines_readBody (tokens : TokenTable) :
    Reader.Refines (fun read code => FromCode tokens (some read.1) (some read.2) (some code))
      (readBody tokens) readBodyCode := by
  refine refines_bind fun maxStack => refines_bind fun initLocals => refines_bind fun locals => ?_
  -- The code is decoded as soon as it is taken, and this takes no more bytes.
  refine (refines_refl readBytes).bind_still fun code code' same bytes read left done => ?_
  subst same
  cases decoded : decodeCode tokens code with
  | error fault =>
    rw [decoded] at done
    cases done
  | ok d =>
    rw [decoded] at done
    obtain ⟨rfl, rfl⟩ := Prod.mk.inj (Except.ok.inj done)
    exact ⟨rfl, _, d, decoded, rfl, rfl, rfl⟩

/-- **Methods are read from their code.** -/
theorem refines_readMethod (tokens : TokenTable) :
    Reader.Refines (MethodFromCode tokens) (readMethod tokens) readMethodCode := by
  refine refines_bind fun name => refines_bind fun attributes => refines_bind fun parameters =>
    refines_bind fun returnType => refines_bind fun markers => refines_bind fun hasBody => ?_
  cases hasBody with
  | false => exact refines_pure ⟨rfl, rfl⟩
  | true => exact (refines_readBody tokens).bind fun read code fromCode => refines_pure fromCode

/-- **Types are read from their code.** -/
theorem refines_readType (tokens : TokenTable) :
    Reader.Refines (TypeFromCode tokens) (readType tokens) readTypeCode := by
  refine refines_bind fun namespaceName => refines_bind fun name => refines_bind fun attributes =>
    refines_bind fun markers => refines_bind fun count => ?_
  refine ((refines_readMethod tokens).times count).bind_still fun methods codes each bytes read left done => ?_
  obtain ⟨rfl, rfl⟩ := Prod.mk.inj (Except.ok.inj done)
  exact ⟨rfl, methods, rfl, rfl, each⟩

namespace ModuleImage

/-- The body **at a place**, if there is one. -/
def bodyAt? (image : ModuleImage) (typeIndex methodIndex : Nat) : Option Body :=
  (image.module.method? typeIndex methodIndex).bind (·.body?)

/-- The cut **at a place**, if there is one. -/
def cutAt? (image : ModuleImage) (typeIndex methodIndex : Nat) : Option CutCode :=
  (image.cuts[typeIndex]?.bind (·[methodIndex]?)).join

/-- An image **comes from** code if at each place the body and the cut do. -/
def ComesFrom (image : ModuleImage) (code : ImageCode) : Prop :=
  ∀ typeIndex methodIndex, FromCode code.tokens (image.bodyAt? typeIndex methodIndex)
    (image.cutAt? typeIndex methodIndex) (code.at? typeIndex methodIndex)

/-- Types that come from code have what they hold at its place. -/
theorem comesFrom_of_types {image : ModuleImage} {code : ImageCode}
    {types : List (TypeDef × List (Option CutCode))} (modules : image.module.types = types.map (·.1))
    (cuts : image.cuts = types.map (·.2)) (each : List.Forall₂ (TypeFromCode code.tokens) types code.bodies) :
    image.ComesFrom code := by
  intro typeIndex methodIndex
  have type := rel_of_forall₂ each typeIndex
  rw [bodyAt?, cutAt?, Module.method?, ImageCode.at?, modules, cuts, List.getElem?_map, List.getElem?_map]
  generalize types[typeIndex]? = read?, code.bodies[typeIndex]? = codes? at type ⊢
  cases type with
  | none => exact ⟨rfl, rfl⟩
  | @some read codes fromCode =>
    obtain ⟨methods, inType, inCuts, each⟩ := fromCode
    have method := rel_of_forall₂ each methodIndex
    simp only [Option.map_some, Option.bind_some, Option.bind_eq_bind, inType, inCuts, List.getElem?_map]
    generalize methods[methodIndex]? = read?, codes[methodIndex]? = code? at method ⊢
    cases method with
    | none => exact ⟨rfl, rfl⟩
    | some fromCode => exact fromCode

/-- **An image is read from its code.** -/
theorem comesFrom_of_read {bytes rest : List UInt8} {image : ModuleImage}
    (loads : ModuleImage.read bytes = .ok (image, rest)) :
    ∃ code, readCode bytes = .ok (code, rest) ∧ image.ComesFrom code := by
  have refines : Reader.Refines ComesFrom ModuleImage.read readCode := by
    refine refines_bind fun _ => refines_bind fun version => ?_
    dsimp only
    by_cases supported : version ≠ imageVersion
    · rw [if_pos supported, if_pos supported]
      intro bytes image rest failed
      cases failed
    · rw [if_neg supported, if_neg supported]
      refine refines_bind fun name => refines_bind fun references => refines_bind fun markers =>
        refines_bind fun tokens => refines_bind fun count => ?_
      exact ((refines_readType tokens).times count).bind fun types codes each =>
        refines_pure (comesFrom_of_types rfl rfl each)
  exact refines bytes image rest loads

variable {image : ModuleImage} {code : ImageCode} {typeIndex methodIndex : Nat}

/-! ## (4) Instructions and where they started -/

/-- **Each body grows** by the points that the entries have for its place. -/
@[simp] theorem bodyAt?_addEntries (entries : List PointEntry) :
    (image.addEntries entries).bodyAt? typeIndex methodIndex
      = (image.bodyAt? typeIndex methodIndex).map (·.addPoints (pointsAt entries typeIndex methodIndex)) := by
  rw [bodyAt?, addEntries, Module.addEntries_eq, Module.method?_mapMethods, bodyAt?]
  cases image.module.method? typeIndex methodIndex <;> rfl

/-- Points change nothing in the code of an image: they are added to the bodies alone. -/
theorem ComesFrom.addEntries (comes : image.ComesFrom code) (entries : List PointEntry) :
    (image.addEntries entries).ComesFrom code := by
  intro typeIndex methodIndex
  have here := comes typeIndex methodIndex
  rw [bodyAt?_addEntries]
  change FromCode _ _ (image.cutAt? typeIndex methodIndex) _
  cases at? : code.at? typeIndex methodIndex with
  | none =>
    rw [at?] at here
    obtain ⟨none, uncut⟩ := here
    exact ⟨by rw [none]; rfl, uncut⟩
  | some bytes =>
    rw [at?] at here
    obtain ⟨body, d, decoded, has, same, cut⟩ := here
    exact ⟨body.addPoints _, d, decoded, by rw [has]; rfl, same, cut⟩

/-- **An instruction is found where it started** in the code, and nowhere else. -/
theorem ComesFrom.handleAt?_eq_some_iff (comes : image.ComesFrom code) {offset : Nat} {handle : Handle} :
    image.handleAt? typeIndex methodIndex offset = some handle
      ↔ ∃ bytes index p, code.at? typeIndex methodIndex = some bytes ∧ PieceAt code.tokens bytes index p
        ∧ p.start = offset ∧ handle = ⟨index⟩ := by
  have here := comes typeIndex methodIndex
  have found : image.handleAt? typeIndex methodIndex offset
      = (image.cutAt? typeIndex methodIndex).bind fun cut =>
        (image.bodyAt? typeIndex methodIndex).bind fun body =>
          (cut.lookup offset).index?.bind body.handleAt? := by
    rw [handleAt?, cutAt?, bodyAt?]
    cases image.cuts[typeIndex]? with
    | none => rfl
    | some cuts =>
      cases shape : cuts[methodIndex]? with
      | none => simp [shape]
      | some cut? => cases cut? <;> simp [shape, Option.bind_assoc]
  rw [found]
  cases at? : code.at? typeIndex methodIndex with
  | none =>
    rw [at?] at here
    rw [here.2]
    constructor
    · intro found
      cases found
    · rintro ⟨bytes, index, p, none, -⟩
      cases none
  | some bytes =>
    rw [at?] at here
    obtain ⟨body, d, decoded, has, same, cut⟩ := here
    have handle : body.handleAt? = d.body.handleAt? := by
      funext position
      rw [Body.handleAt?, same, Body.handleAt?]
    rw [has, cut, Option.bind_some, Option.bind_some, handle, ← DecodedCode.handleAt?]
    constructor
    · intro found
      obtain ⟨pieces, whole⟩ := exists_cut_of_decodeCode decoded
      obtain ⟨index, p, inCode, starts, rfl⟩ := ((whole.follows_of_decodeCode decoded).found _ _).mp found
      exact ⟨bytes, index, p, rfl, ⟨pieces, whole, inCode⟩, starts, rfl⟩
    · rintro ⟨_, index, p, equal, ⟨pieces, whole, inCode⟩, starts, rfl⟩
      obtain rfl := Option.some.inj equal
      exact ((whole.follows_of_decodeCode decoded).found _ _).mpr ⟨index, p, inCode, starts, rfl⟩

/-- **Bodies stand where there is code**: this is all in pieces, and each instruction is the one of its piece,
over other labels. -/
theorem ComesFrom.exists_body (comes : image.ComesFrom code) {bytes : List UInt8}
    (at? : code.at? typeIndex methodIndex = some bytes) :
    ∃ body pieces, image.bodyAt? typeIndex methodIndex = some body ∧ GreedyCut code.tokens 0 bytes pieces none
      ∧ body.code.length = pieces.length ∧ ∀ (index : Nat) (p : Piece), pieces[index]? = some p →
        ∃ target, body.instruction? ⟨index⟩ = some (p.instruction.relabel target) := by
  have here := comes typeIndex methodIndex
  rw [at?] at here
  obtain ⟨body, d, decoded, has, same, -⟩ := here
  obtain ⟨pieces, cut⟩ := exists_cut_of_decodeCode decoded
  have follows := cut.follows_of_decodeCode decoded
  refine ⟨body, pieces, has, cut, same ▸ follows.length, fun index p inCode => ?_⟩
  obtain ⟨offset, target, placed, -⟩ := follows.placed index p inCode
  have distinct := (Body.canonical_of_decodeCode decoded).distinct
  refine ⟨target, ?_⟩
  rw [Body.instruction?, Body.find?, same, ← Body.find?, ← Body.instruction?]
  exact Body.instruction?_of_getElem? distinct placed

/-- No body stands where there is no code. -/
theorem ComesFrom.bodyAt?_eq_none (comes : image.ComesFrom code)
    (none : code.at? typeIndex methodIndex = none) : image.bodyAt? typeIndex methodIndex = .none := by
  have here := comes typeIndex methodIndex
  rw [none] at here
  exact here.1

/-! ## (5) Symbols -/

/-- Points leave an image with its code. -/
theorem ComesFrom.readPoints (comes : image.ComesFrom code) (typeIndex methodIndex count : Nat)
    (bytes : List UInt8) :
    (readPoints typeIndex methodIndex count image bytes).1.ComesFrom code := by
  induction count generalizing image bytes with
  | zero => exact comes
  | succ count ih =>
    rw [ModuleImage.readPoints]
    split
    · exact comes
    · split
      · exact comes
      · next attached =>
        obtain ⟨point, -, rfl⟩ := exists_anchor_of_attach attached
        exact ih (comes.addEntries _) _

/-- Entries leave an image with its code. -/
theorem ComesFrom.readEntries (comes : image.ComesFrom code) (count : Nat) (bytes : List UInt8) :
    (readEntries count image bytes).1.ComesFrom code := by
  induction count generalizing image bytes with
  | zero => exact comes
  | succ count ih =>
    rw [ModuleImage.readEntries]
    split
    · exact comes
    · next typeIndex methodIndex points left _ =>
      have first := comes.readPoints typeIndex.toNat methodIndex.toNat points left
      split
      · next failed =>
        rw [failed] at first
        exact first
      · next done =>
        rw [done] at first
        exact ih first _

/-- **Symbols leave an image with its code**, whether they can be read or not. -/
theorem ComesFrom.readSymbols (comes : image.ComesFrom code) (bytes : List UInt8) :
    (image.readSymbols bytes).1.ComesFrom code := by
  rw [ModuleImage.readSymbols]
  split
  · exact comes
  · next entries left _ =>
    have each := comes.readEntries entries left
    split
    · next failed =>
      rw [failed] at each
      exact each
    · next done =>
      rw [done] at each
      exact each

end ModuleImage

end Hotpatch
