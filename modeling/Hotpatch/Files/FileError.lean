/-! # File errors

Why an operation on a file failed. -/

namespace Hotpatch

/-- A **file error**: the cause the operating system reports for a failed operation. -/
inductive FileError where
  /-- Nothing has that path. -/
  | notFound
  /-- The path goes through something that is not a directory. -/
  | notDirectory
  /-- A file was expected where there is a directory. -/
  | isDirectory
  /-- A name in the path, or the whole path, is too long. -/
  | nameTooLong
  /-- Following the links of the path does not come to an end. -/
  | tooManyLinks
  /-- The path ends in a dot or in two dots where a name was needed. -/
  | busy
  /-- The path holds a null character, which no name can. -/
  | nullInName
  /-- The input ended before all of it was read. -/
  | endOfFile
  /-- Any other cause, in the words of the operating system. -/
  | other (text : String)
deriving Repr, DecidableEq, Inhabited

/-- **Message** of a file error, with the number the operating system gives it. -/
def FileError.message : FileError → String
  | .notFound => "No such file or directory (os error 2)"
  | .notDirectory => "Not a directory (os error 20)"
  | .isDirectory => "Is a directory (os error 21)"
  | .nameTooLong => "File name too long (os error 36)"
  | .tooManyLinks => "Too many levels of symbolic links (os error 40)"
  | .busy => "Device or resource busy (os error 16)"
  | .nullInName => "file name contained an unexpected NUL byte"
  | .endOfFile => "unexpected end of file"
  | .other text => text

end Hotpatch
