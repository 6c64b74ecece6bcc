import Hotpatch.Files.FileError
import Hotpatch.Files.Path

/-! # File systems

The few operations on files that modules are read and written with. Each either takes effect or
fails with a cause. -/

namespace Hotpatch

/-- A **file system**: a monad with operations on files. Links are followed, except by `rename` and
`remove`, which work on the name itself. -/
class FileSystem (m : Type → Type) where
  /-- The contents of a file. -/
  read : Path → m (Except FileError (List UInt8))
  /-- Make a file have these contents. -/
  write : Path → List UInt8 → m (Except FileError Unit)
  /-- Give a file another name, in place of any file that had it. Systems that refuse to replace a file so,
  and on which it would have to be removed first, are not among these. -/
  rename : Path → Path → m (Except FileError Unit)
  /-- Remove a file. -/
  remove : Path → m (Except FileError Unit)
  /-- Whether there is a file. -/
  isFile : Path → m Bool
  /-- The path without dots and links, if something is there. -/
  canonical? : Path → m (Option Path)

end Hotpatch
