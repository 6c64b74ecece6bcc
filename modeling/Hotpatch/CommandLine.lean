import Hotpatch.Batch
import Hotpatch.Store.ImageStore

/-! # Command line

From arguments to a batch and an exit code.

* **`Arguments`** — what has been given so far.
* **`Arguments.parse`** — take the arguments from left to right; the first that asks for
  information or is wrong ends it.
* **`Arguments.settings?`** — the settings, if everything required was given.
* **`runCommandLine`** — parse, run the batch, and give the exit code.

An option has its value behind it: in the same argument, after an equals sign or, if it is a letter,
at once; otherwise in the next argument, which must not look like an option. Two dashes on their own
end the options. -/

namespace Hotpatch

/-! ## (1) Options -/

/-- An option with a **value**. -/
inductive ValueOption where
  | searchDir | outputDir | registryModule | registryType
  | instrumentAllMarker | instrumentMarker | ignoreMarker | injectedMarker
deriving Repr, DecidableEq, Inhabited

/-- An option **without value**. -/
inductive Switch where
  | noSymbols | help | version
deriving Repr, DecidableEq, Inhabited

/-- A **command-line option**. -/
inductive CommandOption where
  | value (option : ValueOption)
  | switch (option : Switch)
deriving Repr, DecidableEq, Inhabited

namespace CommandOption

/-- The **long names** of options, without the dashes. -/
def ofName? : String → Option CommandOption
  | "search-dir" => some (value .searchDir)
  | "output-dir" => some (value .outputDir)
  | "registry-module" => some (value .registryModule)
  | "registry-type" => some (value .registryType)
  | "instrument-all-marker" => some (value .instrumentAllMarker)
  | "instrument-marker" => some (value .instrumentMarker)
  | "ignore-marker" => some (value .ignoreMarker)
  | "injected-marker" => some (value .injectedMarker)
  | "no-symbols" => some (switch .noSymbols)
  | "help" => some (switch .help)
  | "version" => some (switch .version)
  | _ => none

/-- The **letters** of options. -/
def ofLetter? : Char → Option CommandOption
  | 's' => some (value .searchDir)
  | 'o' => some (value .outputDir)
  | 'h' => some (switch .help)
  | 'V' => some (switch .version)
  | _ => none

end CommandOption

/-- Why parsing **stopped** before the end. -/
inductive Stop where
  /-- Help or the version was asked for. -/
  | information (option : Switch)
  /-- The command line is wrong. -/
  | rejected
deriving Repr, DecidableEq, Inhabited

/-! ## (2) Arguments -/

/-- The **arguments** given so far. -/
structure Arguments where
  searchDirectories : List Path
  outputDirectory? : Option Path
  registryModule? : Option String
  registryType? : Option String
  instrumentAll? : Option String
  instrument? : Option String
  ignore? : Option String
  injected? : Option String
  noSymbols : Bool
  inputs : List Path
deriving Repr, DecidableEq, Inhabited

namespace Arguments

/-- **No arguments** so far. -/
def initial : Arguments := ⟨[], none, none, none, none, none, none, none, false, []⟩

/-- A **path** has to have a text. -/
def path (text : String) : Except Stop Path :=
  if text.isEmpty then .error .rejected else .ok ⟨text⟩

/-- A value that may be given **once**. -/
def once (old? : Option α) (new : α) : Except Stop (Option α) :=
  match old? with
  | some _ => .error .rejected
  | none => .ok (some new)

/-- **Set** the value of an option. -/
def set (a : Arguments) (option : ValueOption) (text : String) : Except Stop Arguments :=
  match option with
  | .searchDir =>
    return { a with searchDirectories := a.searchDirectories ++ [← path text] }
  | .outputDir => return { a with outputDirectory? := ← once a.outputDirectory? (← path text) }
  | .registryModule => return { a with registryModule? := ← once a.registryModule? text }
  | .registryType => return { a with registryType? := ← once a.registryType? text }
  | .instrumentAllMarker => return { a with instrumentAll? := ← once a.instrumentAll? text }
  | .instrumentMarker => return { a with instrument? := ← once a.instrument? text }
  | .ignoreMarker => return { a with ignore? := ← once a.ignore? text }
  | .injectedMarker => return { a with injected? := ← once a.injected? text }

/-- **Turn on** a switch. -/
def turnOn (a : Arguments) (option : Switch) : Except Stop Arguments :=
  match option with
  | .noSymbols => if a.noSymbols then .error .rejected else .ok { a with noSymbols := true }
  | .help | .version => .error (.information option)

/-- **Add an input**. -/
def addInput (a : Arguments) (text : String) : Except Stop Arguments :=
  return { a with inputs := a.inputs ++ [← path text] }

/-! ## (3) Parsing -/

/-- **Looks like an option**: a dash with something behind it. -/
def looksLikeOption (text : String) : Bool :=
  match text.toList with
  | '-' :: _ :: _ => true
  | _ => false

/-- What an argument with **letters** leads to: arguments, or an option that waits for its value. -/
def letters (a : Arguments) : List Char → Except Stop (Arguments × Option ValueOption)
  | [] => .ok (a, none)
  | letter :: rest =>
    match CommandOption.ofLetter? letter with
    | none => .error .rejected
    | some (.switch option) => do
      let a ← a.turnOn option
      a.letters rest
    | some (.value option) =>
      match rest with
      | [] => .ok (a, some option)
      | '=' :: value => return (← a.set option (String.ofList value), none)
      | value => return (← a.set option (String.ofList value), none)

/-- What an argument with a **name** leads to: arguments, or an option that waits for its value. -/
def named (a : Arguments) (text : List Char) : Except Stop (Arguments × Option ValueOption) :=
  let name := text.takeWhile (· ≠ '=')
  match CommandOption.ofName? (String.ofList name), text.dropWhile (· ≠ '=') with
  | some (.value option), _ :: value => return (← a.set option (String.ofList value), none)
  | some (.value option), [] => .ok (a, some option)
  | some (.switch option), [] => return (← a.turnOn option, none)
  | _, _ => .error .rejected

/-- **Parse** arguments from left to right. -/
def parse (a : Arguments) : List String → Except Stop Arguments
  | [] => .ok a
  | text :: rest =>
    match text.toList with
    | ['-', '-'] => rest.foldlM addInput a
    | '-' :: second :: more => do
      let (a, waiting?) ← if second = '-' then a.named more else a.letters (second :: more)
      match waiting?, rest with
      | none, rest => a.parse rest
      | some _, [] => .error .rejected
      | some option, value :: rest =>
        if looksLikeOption value then .error .rejected
        else do
          let a ← a.set option value
          a.parse rest
    | _ => do
      let a ← a.addInput text
      a.parse rest

/-! ## (4) Settings -/

/-- The **marker names**, those given in place of the standard ones. -/
def markers (a : Arguments) : MarkerNames where
  instrumentAll := a.instrumentAll?.getD MarkerNames.standard.instrumentAll
  instrument := a.instrument?.getD MarkerNames.standard.instrument
  ignore := a.ignore?.getD MarkerNames.standard.ignore
  injected := a.injected?.getD MarkerNames.standard.injected

/-- The **registry**, its module and type as given or as usual. -/
def registry (a : Arguments) : PatchRegistry :=
  .standard (a.registryModule?.getD PatchRegistry.defaultModule)
    (a.registryType?.getD PatchRegistry.defaultType)

/-- The **settings**, if there are an output directory and an input. -/
def settings? (a : Arguments) : Option Settings :=
  match a.outputDirectory?, a.inputs with
  | some outputDirectory, _ :: _ =>
    some ⟨a.searchDirectories, a.inputs, outputDirectory, a.markers, a.registry, !a.noSymbols,
      !a.noSymbols⟩
  | _, _ => none

/-- **Settings of a command line**. -/
def readSettings (texts : List String) : Except Stop Settings :=
  match initial.parse texts with
  | .error stop => .error stop
  | .ok a =>
    match a.settings? with
    | some settings => .ok settings
    | none => .error .rejected

end Arguments

/-! ## (5) Running -/

variable {m : Type → Type} [Monad m] [FileSystem m] [Journal m]

/-- **Run a batch** as told, to its exit code: zero if every module was processed, else one. -/
def runSettings (settings : Settings) : m UInt32 := do
  let store := imageStore settings.readSymbols settings.writeSymbols
  match ← (Batch.start settings store).run with
  | .error failure =>
    Journal.record ⟨.error, failure.message⟩
    return 1
  | .ok batch =>
    let report ← batch.run
    Journal.record ⟨.info, toString report.instrumentedCount ++ " of "
      ++ toString report.outcomes.length ++ " module(s) instrumented"⟩
    Journal.recordAll (report.failures.map fun (path, failure) =>
      ⟨.error, path.text ++ ": " ++ failure.message⟩)
    return if report.isSuccess then 0 else 1

/-- **Run a command line** to its exit code: zero for information, two if it is wrong. -/
def runCommandLine (texts : List String) : m UInt32 :=
  match Arguments.readSettings texts with
  | .error (.information _) => return 0
  | .error .rejected => return 2
  | .ok settings => runSettings settings

end Hotpatch
