import Hotpatch.CommandLine

/-! # Program

The command line on the files of the system. Records of errors go to the standard error. -/

namespace Hotpatch

/-- The **file error** that a number of the system stands for. -/
def fileErrorOfCode (code : UInt32) (text : String) : FileError :=
  match code with
  | 2 => .notFound
  | 16 => .busy
  | 20 => .notDirectory
  | 21 => .isDirectory
  | 36 => .nameTooLong
  | 40 => .tooManyLinks
  | _ => .other (text ++ " (os error " ++ toString code ++ ")")

/-- The **file error** of an error of the system. -/
def fileErrorOf : IO.Error → FileError
  | .noFileOrDirectory _ code text | .alreadyExists _ code text | .invalidArgument _ code text
  | .permissionDenied _ code text | .resourceExhausted _ code text | .inappropriateType _ code text
  | .noSuchThing _ code text | .interrupted _ code text => fileErrorOfCode code text
  | .otherError code text | .resourceBusy code text | .resourceVanished code text
  | .unsupportedOperation code text | .hardwareFault code text | .unsatisfiedConstraints code text
  | .illegalOperation code text | .protocolError code text | .timeExpired code text =>
    fileErrorOfCode code text
  | .unexpectedEof => .endOfFile
  | .userError text => .other text

/-- An action on files, with its error as a value. -/
def attempt (action : IO α) : IO (Except FileError α) := do
  match ← action.toBaseIO with
  | .ok value => return .ok value
  | .error error => return .error (fileErrorOf error)

instance : FileSystem IO where
  read p := attempt do return (← IO.FS.readBinFile p.text).data.toList
  write p contents := attempt (IO.FS.writeBinFile p.text ⟨contents.toArray⟩)
  rename old new := attempt (IO.FS.rename old.text new.text)
  remove p := attempt (IO.FS.removeFile p.text)
  isFile p := do
    let opened ← attempt do
      let file ← IO.FS.Handle.mk p.text .read
      file.read 1
    return opened.toBool
  canonical? p := do
    match ← attempt (IO.FS.realPath p.text) with
    | .ok path => return some ⟨toString path⟩
    | .error _ => return none

instance : Journal IO where
  record r := if r.level = .error then IO.eprintln r.line else pure ()

/-- How the program is called. -/
def usage : String :=
  "usage: hotpatch [-s DIR]... -o DIR [--registry-module MODULE] [--registry-type TYPE]\n"
    ++ "  [--instrument-all-marker NAME] [--instrument-marker NAME] [--ignore-marker NAME]\n"
    ++ "  [--injected-marker NAME] [--no-symbols] INPUT..."

/-- **Run** the command line, after telling what it was asked for. -/
def runProgram (arguments : List String) : IO UInt32 := do
  match Arguments.readSettings arguments with
  | .error (.information .version) => IO.println "hotpatch 0.1.0"
  | .error (.information _) => IO.println usage
  | .error .rejected => IO.eprintln usage
  | .ok _ => pure ()
  runCommandLine arguments

end Hotpatch

/-- The program. -/
def main (arguments : List String) : IO UInt32 :=
  Hotpatch.runProgram arguments
