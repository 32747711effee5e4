import InstanceState.CommandLine.Arguments
import InstanceState.Generation.Basic
import InstanceState.Model.Basic
import InstanceState.Settings.Document
import InstanceState.Sink.Directory

/-!
# Running commands

What the program does for a command line on a file system: it reads the settings and the model,
and then generates companions or shows the commands of types.
-/

namespace InstanceState

/-- What the program leaves behind besides files. -/
structure Outcome where
  exitCode : UInt8
  /-- The text on standard output. -/
  output : Text := []
  /-- The error that ended the program. -/
  error : Option Text := none
  /-- What was reported on the way. -/
  diagnostics : List Diagnostic := []
deriving DecidableEq, Repr

namespace Outcome

/-- The outcome of a command line that asks for nothing the program can do. -/
def misused (e : UsageError) : Outcome where
  exitCode := 2
  error := some e.message

/-- The outcome of a command that failed. -/
def failed (error : Text) : Outcome where
  exitCode := 1
  error := some error

/-- The outcome of a command that succeeded. -/
def succeeded (output : Text) : Outcome where
  exitCode := 0
  output := output

end Outcome

namespace CommandLine

/-- The name of the program and its version. -/
def versionLine : Text := "icicle 0.4.0\n"

/-- How the program is used. -/
def usage : Text :=
  "Generate instance-state companion classes for Android components\n\n"
    ++ "Usage: icicle generate --model PATH [--config PATH] [--out-dir DIR]\n"
    ++ "       icicle resolve TYPE... [--model PATH] [--config PATH] [--json]\n"

/-! ### Resolved types -/

/-- The JSON value that describes a command. -/
def commandValue (c : Command) : Json.Value :=
  .ofFields
    (("kind", Json.Value.ofText c.kind.name)
      :: c.typeArgument.toList.map fun type => ("type_argument", Json.Value.ofText type))

/-- The JSON value that describes the command of a type. -/
def resolutionValue (type : Text) (c : Command) : Json.Value :=
  .ofFields
    [("type_name", .ofText type), ("command", commandValue c),
     ("storage", .ofText c.storageMethod), ("retrieval", .ofText c.retrievalMethod)]

/-- The line that shows the command of a type. -/
def resolutionLine (json : Bool) (type : Text) (c : Command) : Text :=
  if json then (resolutionValue type c).write ++ "\n"
  else
    type ++ " -> " ++ c.display ++ " (" ++ c.storageMethod ++ " / " ++ c.retrievalMethod ++ ")\n"

/-- The lines that show the commands of types. -/
def resolutionLines (r : Resolver) (json : Bool) (types : List Text) : Text :=
  types.flatMap fun type => resolutionLine json type (r.resolve type)

/-! ### Generated companions -/

/-- The line for the path of each artifact. -/
def pathLines (d : ArtifactDirectory) (artifacts : List Text) : Text :=
  artifacts.flatMap fun artifact => d.pathOf artifact ++ "\n"

/-- The error that ends the program after so many errors were reported. -/
def errorCountMessage (count : Nat) : Text :=
  "generation finished with " ++ (Nat.repr count).toList ++ " error(s)"

/-- The outcome of a batch whose artifacts went to a directory. -/
def outcomeOf (d : ArtifactDirectory) (report : Report) : Outcome :=
  let errors := errorCount report.diagnostics
  { exitCode := if errors = 0 then 0 else 1
    output := pathLines d report.written
    error := if errors = 0 then none else some (errorCountMessage errors)
    diagnostics := report.diagnostics }

/-! ### Commands -/

variable {m : Type → Type} [Monad m] {F : Type}

/-- Goes on with the settings of a document, or fails. -/
def withSettings (fs : FileSystem m F) (config : Path) (go : Settings → m Outcome) :
    m Outcome := do
  match ← Settings.load fs config with
  | .error e => pure (.failed (e.message config))
  | .ok settings => go settings

/-- Goes on with the model of a document, or fails. -/
def withModel (fs : FileSystem m F) (path : Path) (go : Model → m Outcome) : m Outcome := do
  match ← Model.load fs path with
  | .error e => pure (.failed (e.message path))
  | .ok model => go model

/-- Does what an invocation asks for. -/
def perform (fs : FileSystem m F) : Invocation → m Outcome
  | .version => pure (.succeeded versionLine)
  | .help => pure (.succeeded usage)
  | .generate model config outDir =>
    withSettings fs config fun settings =>
      withModel fs model fun model => do
        let d : ArtifactDirectory := ⟨outDir.getD settings.outDir⟩
        let g : Generator := ⟨settings.generator, model.graph⟩
        return outcomeOf d (← g.generate (d.sink fs) model.fields)
  | .resolve types model config json =>
    withSettings fs config fun settings =>
      let answer := fun graph =>
        pure (.succeeded (resolutionLines ⟨graph, settings.generator.parcelableBase⟩ json types))
      match model with
      | none => answer TypeGraph.stock
      | some path => withModel fs path fun model => answer model.graph

/-- Runs the program on the arguments of a command line. -/
def run (fs : FileSystem m F) (arguments : List Text) : m Outcome :=
  match Invocation.parse arguments with
  | .error e => pure (.misused e)
  | .ok invocation => perform fs invocation

end CommandLine

end InstanceState
