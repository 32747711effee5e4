import InstanceState.Files.Path
import InstanceState.Sink.Basic

/-!
# File systems

The operations on files that a program needs, each of which may fail.  They run in any monad: one
file system is the machine's own, another is a tree in memory.
-/

namespace InstanceState

/-- Why an operation on a file system failed. -/
inductive FileError where
  | notFound
  | notADirectory
  | isADirectory
  | alreadyExists
  | notEmpty
  | nameTooLong
  | invalidPath
  | notText
  | other (cause : Text)
deriving DecidableEq, Repr

/-- The failure as it is reported. -/
def FileError.message : FileError → Text
  | .notFound => "no such file or directory"
  | .notADirectory => "not a directory"
  | .isADirectory => "is a directory"
  | .alreadyExists => "file exists"
  | .notEmpty => "directory not empty"
  | .nameTooLong => "file name too long"
  | .invalidPath => "invalid path"
  | .notText => "stream did not contain valid UTF-8"
  | .other cause => cause

/-- The operations on files; `F` is the type of the files that are open for writing. -/
structure FileSystem (m : Type → Type) (F : Type) where
  /-- The octets of a file. -/
  read : Path → m (Except FileError (List UInt8))
  /-- Makes a directory and those above it, unless they exist. -/
  createDirAll : Path → m (Except FileError Unit)
  /-- An empty file of the given path, open for writing. -/
  create : Path → m (Except FileError F)
  write : F → (chunk : List UInt8) → m (Except FileError (Accepted chunk) × F)
  /-- Makes sure that what was written is stored. -/
  sync : F → m (Except FileError Unit)
  rename : Path → Path → m (Except FileError Unit)
  /-- Removes a file. -/
  remove : Path → m (Except FileError Unit)

/-- The text of a file. -/
def FileSystem.readText {m : Type → Type} [Monad m] {F : Type} (fs : FileSystem m F)
    (path : Path) : m (Except FileError Text) := do
  match ← fs.read path with
  | .error e => pure (.error e)
  | .ok octets =>
    match Utf8.decode octets with
    | .error _ => pure (.error .notText)
    | .ok text => pure (.ok text)

end InstanceState
