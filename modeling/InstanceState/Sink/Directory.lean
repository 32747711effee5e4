import InstanceState.Files.System

/-!
# Sinks in a directory

A sink that writes an artifact to a file below a root directory.  The package of the artifact
names the directories and its companion the file.  Octets are collected in a buffer and go to a
partial file beside the target, which takes the target's place on commit and is removed
otherwise.
-/

namespace InstanceState

/-- A directory that takes artifacts. -/
structure ArtifactDirectory where
  root : Path
deriving DecidableEq, Repr

/-- A partial file that is written through a buffer. -/
structure PartialFile (F : Type) where
  file : F
  /-- The octets that are not yet in the file. -/
  pending : List UInt8 := []
  partialPath : Path
  target : Path

namespace ArtifactDirectory

/-! ### Paths -/

/-- The extension of a companion's file. -/
def sourceExtension : Text := "java"

/-- The extension of a partial file. -/
def partialExtension : Text := "java.partial"

/-- The path of the file of an artifact, with the given extension. -/
def pathWith (d : ArtifactDirectory) (artifact extension : Text) : Path :=
  match Text.cutLast? '.' artifact with
  | some (package, name) =>
    Path.push ((Text.pieces '.' package).foldl Path.push d.root) (name ++ "." ++ extension)
  | none => Path.push d.root (artifact ++ "." ++ extension)

/-- The path of a committed artifact. -/
def pathOf (d : ArtifactDirectory) (artifact : Text) : Path :=
  d.pathWith artifact sourceExtension

/-- The path of the partial file of an artifact. -/
def partialPathOf (d : ArtifactDirectory) (artifact : Text) : Path :=
  d.pathWith artifact partialExtension

end ArtifactDirectory

/-! ### Buffered writing -/

namespace PartialFile

variable {m : Type → Type} [Monad m] {F : Type}

/-- The number of octets that the buffer holds. -/
def capacity : Nat := 8192

/-- Writes the buffer to the file, as far as that succeeds. -/
def flush (fs : FileSystem m F) (w : PartialFile F) : m (Except FileError Unit × PartialFile F) := do
  if _h : w.pending = [] then pure (.ok (), w)
  else
    match ← fs.write w.file w.pending with
    | (.error e, file) => pure (.error e, { w with file })
    | (.ok n, file) => flush fs { w with file, pending := w.pending.drop n.val }
termination_by w.pending.length
decreasing_by
  have := n.property.2 (by assumption)
  have := List.length_pos_iff.2 (by assumption)
  simp only [List.length_drop]
  omega

/-- One write.  A chunk that does not fit into the buffer sends the buffer to the file first, and
one that is as large as the buffer goes to the file itself. -/
def write (fs : FileSystem m F) (w : PartialFile F) (chunk : List UInt8) :
    m (Except FileError (Accepted chunk) × PartialFile F) := do
  if w.pending.length + chunk.length ≤ capacity ∧ chunk.length < capacity then
    pure (.ok (.whole chunk), { w with pending := w.pending ++ chunk })
  else
    match ← if w.pending.length + chunk.length ≤ capacity then pure (.ok (), w) else flush fs w with
    | (.error e, w) => pure (.error e, w)
    | (.ok (), w) =>
      if chunk.length < capacity then
        pure (.ok (.whole chunk), { w with pending := w.pending ++ chunk })
      else
        let (result, file) ← fs.write w.file chunk
        pure (result, { w with file })

/-- Lets go of the file: what is still in the buffer is written if possible. -/
def release (fs : FileSystem m F) (w : PartialFile F) : m Unit := do
  let _ ← flush fs w

end PartialFile

/-! ### The sink -/

/-- A failure as the cause of a sink's failure. -/
def causeOf {α : Type} : Except FileError α → Except Text α
  | .ok a => .ok a
  | .error e => .error e.message

namespace ArtifactDirectory

variable {m : Type → Type} [Monad m] {F : Type}

/-- Opens the partial file of an artifact, in directories that are made if need be. -/
def acquire (fs : FileSystem m F) (d : ArtifactDirectory) (artifact : Text) :
    m (Except FileError (PartialFile F)) := do
  let partialPath := d.partialPathOf artifact
  match ← fs.createDirAll partialPath.parent with
  | .error e => pure (.error e)
  | .ok () =>
    match ← fs.create partialPath with
    | .error e => pure (.error e)
    | .ok file => pure (.ok { file, partialPath, target := d.pathOf artifact })

/-- Stores the partial file and puts it in the place of its target. -/
def store (fs : FileSystem m F) (w : PartialFile F) : m (Except FileError Unit) := do
  match ← w.flush fs with
  | (.error e, w) =>
    w.release fs
    pure (.error e)
  | (.ok (), w) =>
    match ← fs.sync w.file with
    | .error e => pure (.error e)
    | .ok () => fs.rename w.partialPath w.target

/-- Stores the partial file, or removes it if that fails. -/
def commit (fs : FileSystem m F) (w : PartialFile F) : m (Except FileError Unit) := do
  match ← store fs w with
  | .ok () => pure (.ok ())
  | .error e =>
    let _ ← fs.remove w.partialPath
    pure (.error e)

/-- Removes the partial file. -/
def discard (fs : FileSystem m F) (w : PartialFile F) : m Unit := do
  w.release fs
  let _ ← fs.remove w.partialPath

/-- The sink of the directory. -/
def sink (fs : FileSystem m F) (d : ArtifactDirectory) : Sink m (PartialFile F) where
  acquire artifact := do return causeOf (← acquire fs d artifact)
  write w chunk := do
    let (result, w) ← w.write fs chunk
    return (causeOf result, w)
  commit _ w := do return causeOf (← commit fs w)
  discard _ w := discard fs w

end ArtifactDirectory

end InstanceState
