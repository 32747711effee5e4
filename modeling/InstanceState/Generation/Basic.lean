import InstanceState.Diagnostic
import InstanceState.Group
import InstanceState.Resolution.Rules
import InstanceState.Roster
import InstanceState.Settings.Basic

/-!
# Generation

One batch of fields becomes one companion for each owner with a valid field.  Invalid fields are
reported and left out, valid ones are grouped by owner, and the companions are published in the
order of their owners' names.  A failure is reported and concerns its own group alone.
-/

namespace InstanceState

/-- The settings and the known types. -/
structure Generator where
  settings : GeneratorSettings
  graph : TypeGraph

/-- What came of a batch. -/
structure Report where
  /-- The names of the committed artifacts, in order. -/
  written : List Text := []
  rejectedFields : Nat := 0
  failedGroups : Nat := 0
  skippedGroups : Nat := 0
  /-- What was reported, in order. -/
  diagnostics : List Diagnostic := []
deriving DecidableEq, Repr

/-- Whether no field was rejected and no group failed. -/
def Report.isClean (r : Report) : Bool := r.rejectedFields = 0 && r.failedGroups = 0

/-- The groups of the fields that were seen, and the errors of those that were rejected. -/
structure Intake where
  groups : Roster Group := .empty
  rejections : List FieldError := []

namespace Generator

/-- The resolution of declared types. -/
def resolver (g : Generator) : Resolver := ⟨g.graph, g.settings.parcelableBase⟩

/-- A field with the command of its declared type. -/
def save (g : Generator) (f : Field) : SavedField := ⟨f, g.resolver.resolve f.declaredType⟩

/-! ### Intake -/

/-- The group of a field's owner after the field: it has a package if the field declares the
first one, and the field itself if the field is valid. -/
def enroll (g : Generator) (f : Field) (group : Option Group) : Group :=
  let group := (group.getD (.new f.owner)).declarePackage f.package
  if f.isValid then group.insert (g.save f) else group

/-- The intake after one more field. -/
def receive (g : Generator) (intake : Intake) (f : Field) : Intake where
  groups := intake.groups.alter f.owner.text (g.enroll f)
  rejections := intake.rejections ++ (FieldError.ofField? f).toList

/-- The intake of a batch. -/
def collect (g : Generator) (fields : List Field) : Intake := fields.foldl g.receive {}

/-! ### Publication -/

/-- The companion of a group. -/
def companion (g : Generator) (group : Group) : Companion where
  layout := group.layout
  suffix := g.settings.suffix
  namespaceKeys := g.settings.namespaceKeys
  family := (group.familyWith fun owner => g.graph.family owner g.settings.viewBases).1
  fields := group.fields

variable {m : Type → Type} [Monad m] {W : Type}

/-- The report after one more group, which is published unless it is empty. -/
def publishGroup (g : Generator) (sink : Sink m W) (report : Report) (group : Group) :
    m Report := do
  if group.isEmpty then
    pure { report with skippedGroups := report.skippedGroups + 1 }
  else
    let companion := g.companion group
    match ← sink.publish companion.artifact companion.chunks with
    | .ok () => pure { report with written := report.written ++ [companion.artifact] }
    | .error e =>
      pure { report with
        failedGroups := report.failedGroups + 1
        diagnostics := report.diagnostics ++ [.ofSinkError group.owner e] }

/-- The report after the groups, in order. -/
def publishGroups (g : Generator) (sink : Sink m W) (report : Report) :
    List Group → m Report
  | [] => pure report
  | group :: rest => do
    g.publishGroups sink (← g.publishGroup sink report group) rest

/-- Runs one batch. -/
def generate (g : Generator) (sink : Sink m W) (fields : List Field) : m Report :=
  let intake := g.collect fields
  g.publishGroups sink
    { rejectedFields := intake.rejections.length
      diagnostics := intake.rejections.map .ofFieldError }
    intake.groups.values

end Generator

end InstanceState
