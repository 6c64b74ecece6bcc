import Hotpatch.Proofs.Effects
import Hotpatch.Store.ImageStore

/-! # Rounds of file operations

What the operations of the image store do step by step, on any file system that is the state of a program.

* **`discard_cons`**, **`stageAll_cons`**, **`moveAll_cons`** — one file more.
* **`writeAll_run`** — the two rounds, one behind the other.
* **`saveImage_run`** — a module, if its files can be made. -/

namespace Hotpatch

variable {σ : Type} {s : σ}

/-- A file operation of which the error is a fault. -/
@[simp] theorem liftFile_run {α : Type} (operation : StateM σ (Except FileError α)) (s : σ) :
    (liftFile operation : ExceptT Fault (StateM σ) α).run.run s
      = (operation.run s).map (·.mapError Fault.ofFileError) id := by
  rw [liftFile, ExceptT.run_bind, ExceptT.run_liftM, bind_map_left, StateT.run_bind]
  generalize operation.run s = ending
  obtain ⟨_ | _, after⟩ := ending
  · rfl
  · rfl

variable [FileSystem (StateM σ)]

/-- **Discarding** one file more. -/
@[simp] theorem discard_cons (path : Path) (rest : List Path) :
    (discard (path :: rest) : StateM σ Unit).run s
      = (discard rest : StateM σ Unit).run ((FileSystem.remove path : StateM σ _).run s).2 := by
  rw [discard, List.forM_eq_forM, List.forM_cons, StateT.run_bind]
  rfl

/-- **Staging** one file more. -/
@[simp] theorem stageAll_cons (staged : List Path) (path : Path) (bytes : List UInt8)
    (rest : List (Path × List UInt8)) :
    (stageAll staged ((path, bytes) :: rest) : StateM σ _).run s
      = match (FileSystem.write (stagingPath path) bytes : StateM σ _).run s with
        | (.ok (), s) => (stageAll (staged ++ [stagingPath path]) rest : StateM σ _).run s
        | (.error error, s) =>
          (.error error, ((discard (staged ++ [stagingPath path]) : StateM σ Unit).run s).2) := by
  rw [stageAll, StateT.run_bind]
  generalize (FileSystem.write (stagingPath path) bytes : StateM σ _).run s = ending
  obtain ⟨_ | _, after⟩ := ending
  · rfl
  · rfl

variable [Journal (StateM σ)]

/-- **Moving** one file more, when nothing is kept of what is recorded. -/
theorem moveAll_cons (silent : ∀ r, (Journal.record r : StateM σ Unit) = pure ()) (staged placed : List Path)
    (staging path : Path) (rest : List (Path × Path)) :
    (moveAll staged placed ((staging, path) :: rest) : StateM σ _).run s
      = match (FileSystem.rename staging path : StateM σ _).run s with
        | (.ok (), s) => (moveAll staged (placed ++ [path]) rest : StateM σ _).run s
        | (.error error, s) => (.error error,
          ((discard placed : StateM σ Unit).run ((discard staged : StateM σ Unit).run s).2).2) := by
  rw [moveAll, silent, pure_bind, StateT.run_bind]
  generalize (FileSystem.rename staging path : StateM σ _).run s = ending
  obtain ⟨_ | _, after⟩ := ending
  · rfl
  · rfl

/-- **Writing all files** is staging them, and then moving them in the reverse order. -/
@[simp] theorem writeAll_run (files : List (Path × List UInt8)) (s : σ) :
    (writeAll files : StateM σ _).run s
      = match (stageAll [] files : StateM σ _).run s with
        | (.ok staged, s) =>
          (moveAll staged [] (staged.zip (files.map (·.1))).reverse : StateM σ _).run s
        | (.error error, s) => (.error error, s) := by
  rw [writeAll, StateT.run_bind]
  generalize (stageAll [] files : StateM σ _).run s = ending
  obtain ⟨_ | _, between⟩ := ending
  · rfl
  · rfl

/-- **Saving a module** is writing its files, if they can be made, after a record of it. -/
theorem saveImage_run_recording (writeSymbols : Bool) (module : Module) (path : Path) (s : σ) :
    (saveImage writeSymbols module path : ExceptT Fault (StateM σ) Unit).run.run s
      = match imageFiles writeSymbols module path with
        | .ok files => ((writeAll files : StateM σ _).run
            ((Journal.record ⟨.info, "Writing module " ++ path.text⟩ : StateM σ Unit).run s).2).map
              (·.mapError Fault.ofFileError) id
        | .error fault => (.error fault, s) := by
  rw [saveImage]
  cases imageFiles writeSymbols module path with
  | error fault => rfl
  | ok files =>
    generalize recorded : (Journal.record ⟨.info, "Writing module " ++ path.text⟩ : StateM σ Unit).run s
      = ending
    obtain ⟨⟨⟩, after⟩ := ending
    have noted : (liftM (Journal.record ⟨.info, "Writing module " ++ path.text⟩ : StateM σ Unit) :
        ExceptT Fault (StateM σ) Unit).run.run s = (.ok (), after) :=
      congrArg (Prod.map Except.ok id) recorded
    have made : (liftM (.ok files : Except Fault (List (Path × List UInt8))) :
        ExceptT Fault (StateM σ) (List (Path × List UInt8))).run.run s = (.ok files, s) := rfl
    rw [Action.bind_of_ok made, Action.bind_of_ok noted, liftFile_run]

/-- The same when nothing is kept of what is recorded. -/
theorem saveImage_run (silent : ∀ r, (Journal.record r : StateM σ Unit) = pure ()) (writeSymbols : Bool)
    (module : Module) (path : Path) (s : σ) :
    (saveImage writeSymbols module path : ExceptT Fault (StateM σ) Unit).run.run s
      = match imageFiles writeSymbols module path with
        | .ok files => ((writeAll files : StateM σ _).run s).map (·.mapError Fault.ofFileError) id
        | .error fault => (.error fault, s) := by
  rw [saveImage_run_recording, silent]
  rfl

end Hotpatch
