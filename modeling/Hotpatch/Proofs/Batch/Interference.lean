import Hotpatch.Proofs.Batch.Shelf
import Hotpatch.Proofs.Image.NormalForm

/-! # Interference in a batch

What the inputs of a batch have to do with each other. Their outcomes do not depend on each other, but what
is made of two of them may be for the same place, and what is made of one of them may be for the place of
another: an input is only compared with its own target.

* **`Shelf.Agree`** — where something is made of two inputs for the same place, it is the same.
* **`Shelf.run_order`** — the order of the inputs matters to nothing but what is left at such places.
* **`Shelf.run_keeps_inputs_iff`** — the inputs that a batch overwrites. -/

namespace Hotpatch

namespace Shelf

variable {α : Type} {s : Shelf α} {format : Format α} {settings : Settings} {input other : Path}
  {place : Place} {entry : α} {made made' : List (Place × α)}

/-! ## (1) Entries at the same place -/

/-- Entries are **consistent** if there are no different ones for the same place. -/
def Consistent (made : List (Place × α)) : Prop :=
  ∀ m ∈ made, ∀ m' ∈ made, m.1 = m'.1 → m.2 = m'.2

/-- Two entries may be put **in either order** if they are not for the same place, or are the same. -/
theorem put_comm (s : Shelf α) {m m' : Place × α} (same : m.1 = m'.1 → m.2 = m'.2) :
    (s.put m.1 m.2).put m'.1 m'.2 = (s.put m'.1 m'.2).put m.1 m.2 := by
  by_cases here : m.1 = m'.1
  · rw [here, same here]
  · exact congrArg mk (Function.update_comm here _ _ _)

/-- **Consistent entries** may be put in any order. -/
theorem putAll_perm (consistent : Consistent made) (perm : made.Perm made') (s : Shelf α) :
    s.putAll made = s.putAll made' :=
  perm.foldl_eq' (fun m mem m' mem' t => put_comm t (consistent m mem m' mem')) s

/-- **Consistent entries** are all there in the end. -/
theorem content?_putAll_of_mem (consistent : Consistent made) (mem : (place, entry) ∈ made) (s : Shelf α) :
    (s.putAll made).content? place = some entry := by
  rcases mem_or_notMem_of_putAll s made place with ⟨last, there, mem'⟩ | ⟨-, none⟩
  · exact there.trans (congrArg some (consistent _ mem' _ mem rfl))
  · exact absurd mem (none entry)

/-! ## (2) The order of the inputs -/

/-- The inputs of a batch **agree** if what is made of two of them for the same place is the same. -/
def Agree (s : Shelf α) (format : Format α) (settings : Settings) : Prop :=
  ∀ input ∈ settings.inputs, ∀ other ∈ settings.inputs, ∀ place entry entry',
    s.made? format settings input = some (place, entry) →
    s.made? format settings other = some (place, entry') → entry = entry'

/-- What is made of inputs that agree is consistent. -/
theorem Agree.consistent (agree : s.Agree format settings) :
    Consistent (settings.inputs.filterMap (s.made? format settings)) := by
  rintro ⟨place, entry⟩ mem ⟨place', entry'⟩ mem' rfl
  obtain ⟨input, among, here⟩ := List.mem_filterMap.mp mem
  obtain ⟨other, among', there⟩ := List.mem_filterMap.mp mem'
  exact agree input among other among' place entry entry' here there

/-- An input can be the last one. -/
theorem exists_perm_concat {inputs : List Path} (mem : input ∈ inputs) :
    ∃ front, (front ++ [input]).Perm inputs := by
  obtain ⟨front, back, rfl⟩ := List.append_of_mem mem
  exact ⟨front ++ back, by grind⟩

/-- What is made of **the last input** is there in the end. -/
theorem content?_run_concat (valid : settings.registry.validate = .ok ())
    (here : s.made? format settings input = some (place, entry)) (front : List Path) :
    (s.run format { settings with inputs := front ++ [input] }).2.content? place = some entry := by
  have made : (front ++ [input]).filterMap (s.made? format settings)
      = front.filterMap (s.made? format settings) ++ [(place, entry)] := by
    rw [List.filterMap_append, List.filterMap_cons_some here]
    rfl
  have ending : (s.run format { settings with inputs := front ++ [input] }).2
      = s.putAll ((front ++ [input]).filterMap (s.made? format settings)) :=
    congrArg Prod.snd (run_eq { settings with inputs := front ++ [input] } valid s format)
  rw [ending, made, content?_putAll, List.reverse_concat, List.lookup_cons, beq_self_eq_true]
  rfl

/-- **The order of the inputs** does not matter to their outcomes. It matters to what is left at a place for
which something is made of two of them, if that is not the same. Otherwise, and only then, what is made of
each input that is instrumented is there in the end. -/
theorem run_order (settings : Settings) (valid : settings.registry.validate = .ok ()) (s : Shelf α)
    (format : Format α) :
    (∀ inputs, inputs.Perm settings.inputs → (s.run format { settings with inputs }).1
        = .ok ⟨inputs.map fun input => (input, s.outcome format settings input)⟩)
    ∧ ((∀ inputs, inputs.Perm settings.inputs →
        (s.run format { settings with inputs }).2 = (s.run format settings).2) ↔ s.Agree format settings)
    ∧ ((∀ input ∈ settings.inputs, ∀ methods, s.outcome format settings input = .ok (.instrumented methods) →
        ∃ place entry, s.made? format settings input = some (place, entry)
          ∧ (s.run format settings).2.content? place = some entry) ↔ s.Agree format settings) := by
  have ending (inputs : List Path) : s.run format { settings with inputs }
      = (.ok ⟨inputs.map fun input => (input, s.outcome format settings input)⟩,
        s.putAll (inputs.filterMap (s.made? format settings))) :=
    run_eq { settings with inputs } valid s format
  have whole : (s.run format settings).2 = s.putAll (settings.inputs.filterMap (s.made? format settings)) :=
    congrArg Prod.snd (ending settings.inputs)
  -- Inputs agree if what is made of each is there in the end.
  have agree_of_there (there : ∀ input ∈ settings.inputs, ∀ place entry,
      s.made? format settings input = some (place, entry) →
      (s.run format settings).2.content? place = some entry) : s.Agree format settings :=
    fun input mem other mem' place entry entry' here here' =>
      Option.some.inj ((there input mem place entry here).symm.trans (there other mem' place entry' here'))
  refine ⟨fun inputs _ => congrArg Prod.fst (ending inputs), ⟨fun same => ?_, fun agree inputs perm => ?_⟩,
    ⟨fun there => ?_, fun agree input mem methods ended => ?_⟩⟩
  · refine agree_of_there fun input mem place entry here => ?_
    obtain ⟨front, perm⟩ := exists_perm_concat mem
    rw [← same _ perm]
    exact content?_run_concat valid here front
  · rw [whole, ending]
    exact (putAll_perm agree.consistent (perm.symm.filterMap _) s).symm
  · refine agree_of_there fun input mem place entry here => ?_
    obtain ⟨-, -, methods, -, -, -, -, -, ended⟩ := made?_eq_some_iff.mp here
    obtain ⟨place', entry', here', left⟩ := there input mem methods ended
    obtain ⟨rfl, rfl⟩ := Prod.mk.inj (Option.some.inj (here.symm.trans here'))
    exact left
  · obtain ⟨place, entry, here⟩ := exists_of_outcome ended
    refine ⟨place, entry, here, ?_⟩
    rw [whole]
    exact content?_putAll_of_mem agree.consistent (List.mem_filterMap.mpr ⟨input, mem, here⟩) s

end Shelf

/-- The format of **images**. -/
def Format.image : Format (List UInt8) where
  read
    | some bytes => Module.ofFiles bytes none
    | none => .error .unexpectedEnd
  write := Module.write

/-- A module with a method to be patched. -/
def Module.marked (name : String) : Module :=
  { name
    references := []
    markers := []
    types := [⟨"Demo", "Loop", .visible, [MarkerNames.standard.instrumentAll], [{
      name := "spin"
      attributes := ⟨0⟩
      parameters := []
      returnType := .builtin .void
      markers := []
      body? := some {
        maxStack := 8
        initLocals := false
        locals := []
        points := []
        code := [⟨⟨0⟩, 0, .plain .ret⟩] } }]⟩]
    document? := none }

/-- The image of a module when it has been patched. -/
def Module.patchedImage (m : Module) : List UInt8 :=
  (m.instrument .standard (.standard "Hotfix" "Hotfix.PatchRegistry")).module.write.toOption.getD []

/-- The settings to patch some inputs. -/
def Settings.patching (inputs : List Path) : Settings :=
  { searchDirectories := []
    inputs
    outputDirectory := ⟨"out"⟩
    markers := .standard
    registry := .standard "Hotfix" "Hotfix.PatchRegistry"
    readSymbols := false
    writeSymbols := false }

namespace Shelf

/-- A shelf with modules of the same file name in different places. -/
def stocked : Shelf (List UInt8) where
  content? := (List.lookup · [
    ([.name "a", .name "x.ilm"], (Module.marked "A").write.toOption.getD []),
    ([.name "b", .name "x.ilm"], (Module.marked "B").write.toOption.getD []),
    ([.name "c", .name "y.ilm"], (Module.marked "C").write.toOption.getD []),
    ([.name "out", .name "y.ilm"], (Module.marked "D").write.toOption.getD [])])

/-- Inputs with different file names agree. -/
theorem run_order_stocked :
    stocked.Agree .image (.patching [⟨"a/x.ilm"⟩, ⟨"c/y.ilm"⟩])
      ∧ (stocked.run .image (.patching [⟨"c/y.ilm"⟩, ⟨"a/x.ilm"⟩])).2
        = (stocked.run .image (.patching [⟨"a/x.ilm"⟩, ⟨"c/y.ilm"⟩])).2 := by
  obtain ⟨-, order, delivery⟩ :=
    run_order (.patching [⟨"a/x.ilm"⟩, ⟨"c/y.ilm"⟩]) (by decide) stocked .image
  have agree : stocked.Agree .image (.patching [⟨"a/x.ilm"⟩, ⟨"c/y.ilm"⟩]) := by
    refine delivery.mp fun input mem _ _ => ?_
    rcases List.mem_cons.mp mem with rfl | mem
    · exact ⟨[.name "out", .name "x.ilm"], (Module.marked "A").patchedImage, by decide +kernel⟩
    · obtain rfl := List.mem_singleton.mp mem
      exact ⟨[.name "out", .name "y.ilm"], (Module.marked "C").patchedImage, by decide +kernel⟩
  exact ⟨agree, order.mpr agree _ (.swap _ _ _)⟩

/-- Of two inputs with the same file name, both are reported as instrumented, in either order, but only what
is made of the last one is there in the end: the order matters. -/
theorem run_order_crowded :
    (¬ ∀ (s : Shelf (List UInt8)) (settings : Settings) (inputs : List Path),
      settings.registry.validate = .ok () → inputs.Perm settings.inputs → ∀ place,
        (s.run .image { settings with inputs }).2.content? place
          = (s.run .image settings).2.content? place)
    ∧ ∀ inputs ∈ [[Path.mk "a/x.ilm", ⟨"b/x.ilm"⟩], [⟨"b/x.ilm"⟩, ⟨"a/x.ilm"⟩]],
      (stocked.run .image (.patching inputs)).1
        = .ok ⟨inputs.map fun input => (input, .ok (.instrumented ["Demo.Loop::spin"]))⟩ := by
  refine ⟨fun claim => ?_, fun inputs mem => ?_⟩
  · have same := claim stocked (.patching [⟨"a/x.ilm"⟩, ⟨"b/x.ilm"⟩]) [⟨"b/x.ilm"⟩, ⟨"a/x.ilm"⟩]
      (by decide) (.swap _ _ _) [.name "out", .name "x.ilm"]
    exact absurd same (by decide +kernel)
  · have outcomes : ∀ input ∈ inputs, stocked.outcome .image (.patching inputs) input
        = .ok (.instrumented ["Demo.Loop::spin"]) := by
      revert inputs
      decide +kernel
    have valid : (Settings.patching []).registry.validate = .ok () := by decide
    rw [run_eq (.patching inputs) valid]
    exact congrArg (fun outcomes => Except.ok (Report.mk outcomes))
      (List.map_congr_left fun input among => by rw [outcomes input among])

/-! ## (3) The places of the inputs -/

/-- **The inputs that a batch overwrites** are those for the place of which something else is made of another.
They are refused themselves, as they are in the output directory. All others are kept, all the time. -/
theorem run_keeps_inputs_iff (settings : Settings) (valid : settings.registry.validate = .ok ())
    (s : Shelf α) (format : Format α) :
    ((∀ front, front <+: settings.inputs → ∀ input ∈ settings.inputs,
        (s.run format { settings with inputs := front }).2.content? input.components
          = s.content? input.components)
      ↔ ∀ input ∈ settings.inputs, ∀ other ∈ settings.inputs, ∀ entry,
        s.made? format settings other = some (input.components, entry) →
        s.content? input.components = some entry)
    ∧ ∀ input other entry, s.made? format settings other = some (input.components, entry) →
      s.outcome format settings input = .error (.outputOverwritesInput input) := by
  refine ⟨⟨fun keeps input mem other mem' entry here => ?_, fun same front before input mem => ?_⟩,
    fun input other entry here => outcome_of_inOutput (inOutput_of_made? here)⟩
  · -- The batch up to the other input leaves the entry there.
    obtain ⟨front, back, whole⟩ := List.append_of_mem mem'
    rw [← keeps (front ++ [other]) ⟨back, by rw [whole, List.append_assoc]; rfl⟩ input mem]
    exact content?_run_concat valid here front
  · have ending : (s.run format { settings with inputs := front }).2
        = s.putAll (front.filterMap (s.made? format settings)) :=
      congrArg Prod.snd (run_eq { settings with inputs := front } valid s format)
    rw [ending]
    rcases mem_or_notMem_of_putAll s (front.filterMap (s.made? format settings)) input.components
      with ⟨entry, there, made⟩ | ⟨kept, -⟩
    · obtain ⟨other, among, here⟩ := List.mem_filterMap.mp made
      rw [there, same input mem other (before.subset among) entry here]
    · exact kept

/-- Inputs outside of the output directory are kept, both when the first has had its turn and in the end. -/
theorem run_keeps_inputs_stocked :
    (stocked.run .image (.patching [⟨"a/x.ilm"⟩])).2.content? (Path.components ⟨"b/x.ilm"⟩)
        = stocked.content? (Path.components ⟨"b/x.ilm"⟩)
      ∧ (stocked.run .image (.patching [⟨"a/x.ilm"⟩, ⟨"b/x.ilm"⟩])).2.content? (Path.components ⟨"a/x.ilm"⟩)
        = stocked.content? (Path.components ⟨"a/x.ilm"⟩) := by
  obtain ⟨keeps, refused⟩ :=
    run_keeps_inputs_iff (.patching [⟨"a/x.ilm"⟩, ⟨"b/x.ilm"⟩]) (by decide) stocked .image
  have kept := keeps.mpr fun input mem other _ entry here => by
    -- An input that is overwritten is refused, and neither of these is.
    have ended := refused input other entry here
    rcases List.mem_cons.mp mem with rfl | mem
    · exact absurd ended (by decide +kernel)
    · obtain rfl := List.mem_singleton.mp mem
      exact absurd ended (by decide +kernel)
  have patching (front : List Path) :
      { Settings.patching [⟨"a/x.ilm"⟩, ⟨"b/x.ilm"⟩] with inputs := front } = .patching front := rfl
  simp only [patching] at kept
  exact ⟨kept [⟨"a/x.ilm"⟩] ⟨[_], rfl⟩ ⟨"b/x.ilm"⟩ (.tail _ (.head _)),
    kept [⟨"a/x.ilm"⟩, ⟨"b/x.ilm"⟩] (List.prefix_refl _) ⟨"a/x.ilm"⟩ (.head _)⟩

/-- What is made of one input takes the place of another, which is in the output directory. -/
theorem run_overwrites_input :
    ¬ ∀ (s : Shelf (List UInt8)) (settings : Settings), settings.registry.validate = .ok () →
      ∀ front, front <+: settings.inputs → ∀ input ∈ settings.inputs,
        (s.run .image { settings with inputs := front }).2.content? input.components
          = s.content? input.components := by
  intro claim
  have kept := claim stocked (.patching [⟨"c/y.ilm"⟩, ⟨"out/y.ilm"⟩]) (by decide) [⟨"c/y.ilm"⟩] ⟨[_], rfl⟩
    ⟨"out/y.ilm"⟩ (.tail _ (.head _))
  exact absurd kept (by decide +kernel)

end Shelf

end Hotpatch
