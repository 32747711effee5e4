import InstanceState.Source.Companion

/-!
# Sinks

A sink takes artifacts: an artifact is acquired, written and then either committed or discarded.
Each operation may fail, and a write may take only the beginning of what it is given; what is
left is then written again.  The operations run in any monad, such as that of a state machine.
-/

namespace InstanceState

/-- The number of octets that a writer takes from the front of a chunk: at least one, if there
are any. -/
abbrev Accepted (chunk : List UInt8) : Type :=
  { n : Nat // n ≤ chunk.length ∧ (chunk ≠ [] → 0 < n) }

/-- All octets of a chunk. -/
def Accepted.whole (chunk : List UInt8) : Accepted chunk :=
  ⟨chunk.length, Nat.le_refl _, fun h => List.length_pos_iff.2 h⟩

/-- One write of a chunk: the writer after it, and what it took or the cause of its failure. -/
abbrev WriteCall (m : Type → Type) (W : Type) : Type :=
  W → (chunk : List UInt8) → m (Except Text (Accepted chunk) × W)

/-- The operations of a sink; every failure is a text that tells the cause. -/
structure Sink (m : Type → Type) (W : Type) where
  /-- A writer for the artifact of a name. -/
  acquire : Text → m (Except Text W)
  write : WriteCall m W
  /-- Publishes what was written. -/
  commit : Text → W → m (Except Text Unit)
  /-- Drops what was written. -/
  discard : Text → W → m Unit

variable {m : Type → Type} [Monad m] {W : Type}

/-- Writes a whole chunk, by as many writes as it takes. -/
def writeAll (write : WriteCall m W) (w : W) : List UInt8 → m (Except Text Unit × W)
  | [] => pure (.ok (), w)
  | b :: rest => do
    match ← write w (b :: rest) with
    | (.error cause, w) => pure (.error cause, w)
    | (.ok n, w) => writeAll write w ((b :: rest).drop n.val)
termination_by chunk => chunk.length
decreasing_by
  have := n.property.2 (List.cons_ne_nil b rest)
  simp only [List.length_drop]
  simp only [List.length_cons]
  omega

/-- Writes chunks in order, up to the first failure. -/
def writeChunks (write : WriteCall m W) (w : W) : List (List UInt8) → m (Except Text Unit × W)
  | [] => pure (.ok (), w)
  | chunk :: rest => do
    match ← writeAll write w chunk with
    | (.error cause, w) => pure (.error cause, w)
    | (.ok (), w) => writeChunks write w rest

/-! ### Failures -/

/-- The operations of a sink that can fail. -/
inductive Stage where
  | create
  | write
  | commit
deriving DecidableEq, Repr

/-- The verb that names a stage. -/
def Stage.verb : Stage → Text
  | .create => "create"
  | .write => "write"
  | .commit => "commit"

/-- The failure to produce one artifact. -/
structure SinkError where
  stage : Stage
  artifact : Text
  cause : Text
deriving DecidableEq, Repr

/-- The failure as it is reported. -/
def SinkError.message (e : SinkError) : Text :=
  "impossible to " ++ e.stage.verb ++ " '" ++ e.artifact ++ "': " ++ e.cause

/-- Produces one artifact from its chunks: acquires it, writes it, and commits it or, if a write
failed, discards it. -/
def Sink.publish (s : Sink m W) (artifact : Text) (chunks : List (List UInt8)) :
    m (Except SinkError Unit) := do
  match ← s.acquire artifact with
  | .error cause => pure (.error ⟨.create, artifact, cause⟩)
  | .ok w =>
    match ← writeChunks s.write w chunks with
    | (.error cause, w) =>
      s.discard artifact w
      pure (.error ⟨.write, artifact, cause⟩)
    | (.ok (), w) =>
      match ← s.commit artifact w with
      | .error cause => pure (.error ⟨.commit, artifact, cause⟩)
      | .ok () => pure (.ok ())

end InstanceState
