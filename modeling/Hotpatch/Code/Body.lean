import Hotpatch.Code.Instruction
import Hotpatch.Fault

/-! # Method bodies

A body lists its instructions in the order in which they are laid out. Each keeps the handle it got
when it was added, wherever others are put in, and branches name their targets by handle.

* **`Body.push`**, **`Body.insertBefore`**, **`Body.insertAfter`** — add one instruction.
* **`Body.offsets`** — all offsets at once, by handle; `getElem?_offsets` ties them to `Body.offset?`.
* **`Body.recomputeOffsets`** — give every instruction the total width of those before it;
  `Body.recompute` returns the total of all widths as well.
* **`Body.offsetsAreCurrent`** — whether the offsets are those totals.
* **`Body.ofInstructions`** — a body from instructions whose targets are positions.
* **`Body.WellFormed`** — the handles are numbered without gaps and every target is among them.

New instructions have offset zero until the offsets are recomputed. -/

namespace Hotpatch

/-! ## (1) Bodies -/

/-- A **sequence point**: the place in the source an instruction belongs to. -/
structure SequencePoint where
  instruction : Handle
  line : UInt32
  column : UInt16
deriving Repr, DecidableEq, Inhabited

/-- An instruction **placed** in a body. -/
structure Placed where
  handle : Handle
  /-- Where its code starts, as of the last time the offsets were recomputed. -/
  offset : Nat
  instruction : Instruction Handle
deriving Repr, DecidableEq, Inhabited

/-- The **body** of a method. -/
structure Body where
  /-- The most values the evaluation stack may hold. -/
  maxStack : UInt16
  /-- The locals are zero when the method starts. -/
  initLocals : Bool
  locals : List TypeSig
  points : List SequencePoint
  /-- The instructions in layout order. -/
  code : List Placed
deriving Repr, DecidableEq, Inhabited

namespace Body

/-- The **empty** body. -/
def empty : Body := ⟨8, false, [], [], []⟩

/-- **Well formed**: `n` instructions have the handles below `n`, each one once, and branch to no
others. -/
structure WellFormed (b : Body) : Prop where
  handles : (b.code.map (·.handle.index)).Perm (List.range b.code.length)
  targets : ∀ placed ∈ b.code, ∀ target ∈ placed.instruction.targets,
    target.index < b.code.length

/-! ## (2) Looking up -/

/-- The **first** instruction, where the method starts. -/
def first? (b : Body) : Option Handle :=
  b.code.head?.map (·.handle)

/-- The instruction **at** a position of the layout. -/
def handleAt? (b : Body) (position : Nat) : Option Handle :=
  b.code[position]?.map (·.handle)

/-- The **position** of an instruction in the layout. -/
def position? (b : Body) (handle : Handle) : Option Nat :=
  b.code.findIdx? (·.handle == handle)

/-- The instruction of a handle, as placed. -/
def find? (b : Body) (handle : Handle) : Option Placed :=
  b.code.find? (·.handle == handle)

/-- The **instruction** of a handle. -/
def instruction? (b : Body) (handle : Handle) : Option (Instruction Handle) :=
  (b.find? handle).map (·.instruction)

/-- The **offset** of an instruction. -/
def offset? (b : Body) (handle : Handle) : Option Nat :=
  (b.find? handle).map (·.offset)

/-- **Offsets by handle**: at the index of each handle, where its instruction starts. -/
def offsets (b : Body) : Array (Option Nat) :=
  b.code.foldr (fun placed found => found.setIfInBounds placed.handle.index (some placed.offset))
    (Array.replicate b.code.length none)

private theorem getElem?_foldr_offsets (code : List Placed) (count index : Nat) :
    (code.foldr (fun placed found => found.setIfInBounds placed.handle.index (some placed.offset))
      (Array.replicate count none))[index]?
      = if index < count then
          some ((code.find? (·.handle == ⟨index⟩)).map (·.offset))
        else none := by
  induction code with
  | nil => simp [Array.getElem?_replicate]
  | cons placed rest ih =>
    have size (l : List Placed) : (l.foldr (fun placed found =>
        found.setIfInBounds placed.handle.index (some placed.offset))
        (Array.replicate count none)).size = count := by
      induction l with
      | nil => simp
      | cons _ _ h => simpa using h
    rw [List.foldr_cons, Array.getElem?_setIfInBounds, size, ih, List.find?_cons]
    by_cases same : placed.handle.index = index
    · subst same
      simp
    · have other : (placed.handle == ⟨index⟩) = false :=
        beq_false_of_ne fun h => same (by rw [h])
      simp [same, other]

/-- The offset found by the index of a handle is the offset of the handle. -/
@[simp, grind =] theorem getElem?_offsets (b : Body) (handle : Handle) :
    b.offsets[handle.index]?
      = if handle.index < b.code.length then some (b.offset? handle) else none := by
  rw [offsets, getElem?_foldr_offsets]
  simp only [offset?, find?]

/-! ## (3) Adding instructions -/

/-- **Place** an instruction at a position, under the next free handle. With up to 2³² instructions this is
`Handle.ofPosition` of their number, and code of that many could not be written. -/
def place (b : Body) (position : Nat) (instruction : Instruction Handle) : Handle × Body :=
  let handle : Handle := ⟨b.code.length⟩
  (handle, { b with code := b.code.insertIdx position ⟨handle, 0, instruction⟩ })

/-- **Check targets**: the first one that is none of `count` instructions is a fault. -/
def checkTargets (count : Nat) (instruction : Instruction Handle) : Except Fault Unit :=
  match instruction.targets.find? fun target => count ≤ target.index with
  | some target => .error (.danglingTarget target)
  | none => .ok ()

/-- **Push** an instruction behind the last one. -/
def push (b : Body) (instruction : Instruction Handle) : Except Fault (Handle × Body) := do
  checkTargets b.code.length instruction
  return b.place b.code.length instruction

/-- **Insert before** an instruction. -/
def insertBefore (b : Body) (anchor : Handle) (instruction : Instruction Handle) :
    Except Fault (Handle × Body) :=
  match b.position? anchor with
  | none => .error (.unknownInstruction anchor)
  | some position => do
    checkTargets b.code.length instruction
    return b.place position instruction

/-- **Insert after** an instruction. -/
def insertAfter (b : Body) (anchor : Handle) (instruction : Instruction Handle) :
    Except Fault (Handle × Body) :=
  match b.position? anchor with
  | none => .error (.unknownInstruction anchor)
  | some position => do
    checkTargets b.code.length instruction
    return b.place (position + 1) instruction

/-! ## (4) Offsets -/

/-- **Lay out** instructions from an offset on, one behind the other. -/
def layOut : Nat → List Placed → List Placed
  | _, [] => []
  | offset, placed :: rest =>
    { placed with offset } :: layOut (offset + placed.instruction.width) rest

/-- **Recompute** the offsets of all instructions. -/
def recomputeOffsets (b : Body) : Body :=
  { b with code := layOut 0 b.code }

/-- **Lay out** instructions from an offset on, and tell where the last one ends. -/
def layOutTo : Nat → List Placed → List Placed × Nat
  | offset, [] => ([], offset)
  | offset, placed :: rest =>
    let (rest, stop) := layOutTo (offset + placed.instruction.width) rest
    ({ placed with offset } :: rest, stop)

/-- **Recompute** the offsets of all instructions, and return the size of the code. -/
def recompute (b : Body) : Body × Nat :=
  let (code, size) := layOutTo 0 b.code
  ({ b with code }, size)

/-- **Laid out** from an offset on: each instruction starts where the one before it ends. -/
def isLaidOut : Nat → List Placed → Bool
  | _, [] => true
  | offset, placed :: rest =>
    placed.offset == offset && isLaidOut (offset + placed.instruction.width) rest

/-- **Current** offsets: recomputing them would change nothing. -/
def offsetsAreCurrent (b : Body) : Bool :=
  isLaidOut 0 b.code

/-- **Code size**: where the last instruction ends. It is the size of the code if the offsets are
current. -/
def codeSize (b : Body) : Nat :=
  match b.code.getLast? with
  | none => 0
  | some placed => placed.offset + placed.instruction.width

/-! ## (5) Bodies from lists -/

/-- The handle of a position among `count` instructions. -/
def target (count position : Nat) : Except Fault Handle :=
  if position < count then .ok (.ofPosition position)
  else .error (.danglingTarget (.ofPosition position))

/-- **Body of instructions** whose targets are positions in the same list. -/
def ofInstructions (instructions : List (Instruction Nat)) : Except Fault Body := do
  let count := instructions.length
  let resolved ← instructions.mapM (·.mapLabels (target count))
  let code := resolved.mapIdx fun position instruction => ⟨⟨position⟩, 0, instruction⟩
  return { empty with code := layOut 0 code }

/-- **Rendered** body: offset, handle and text of every instruction. -/
def render (b : Body) : String :=
  Text.list (b.code.map fun placed =>
    Text.offset placed.offset ++ " " ++ placed.handle.text ++ ": "
      ++ placed.instruction.render Handle.text)

end Body

end Hotpatch
