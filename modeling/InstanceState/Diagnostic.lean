import InstanceState.Field
import InstanceState.Sink.Basic

/-!
# Diagnostics

What generation reports: how severe it is, the type or field that it is about, and a message.
-/

namespace InstanceState

/-- How severe a diagnostic is. -/
inductive Severity where
  | note
  | warning
  | error
deriving DecidableEq, Repr

namespace Severity

/-- The word for a severity at the beginning of a diagnostic. -/
def word : Severity → Text
  | .note => "note"
  | .warning => "warning"
  | .error => "error"

/-- The name of a severity. -/
def name : Severity → Text
  | .note => "Note"
  | .warning => "Warning"
  | .error => "Error"

/-- The severity of a word. -/
def ofWord? (t : Text) : Option Severity := [.note, .warning, .error].find? fun s => t = s.word

end Severity

/-- What a diagnostic is about. -/
inductive Subject where
  | type (owner : TypeName)
  | field (owner : TypeName) (name : Text)
deriving DecidableEq, Repr

/-- The subject as it is shown. -/
def Subject.display : Subject → Text
  | .type owner => owner.text
  | .field owner name => owner.text ++ "." ++ name

/-- A problem that was found. -/
structure Diagnostic where
  severity : Severity
  subject : Subject
  message : Text
deriving DecidableEq, Repr

/-- A field that a companion cannot reach, and the modifiers that are the reason. -/
structure FieldError where
  owner : TypeName
  name : Text
  violations : List Modifier
deriving DecidableEq, Repr

namespace FieldError

/-- What is wrong with a field, if anything. -/
def ofField? (f : Field) : Option FieldError :=
  if f.isValid then none else some ⟨f.owner, f.name, f.violations⟩

/-- The error as it is reported. -/
def message (e : FieldError) : Text :=
  "field '" ++ e.name ++ "' must not be private, static or final (found: "
    ++ Text.joinWith ", " (e.violations.map Modifier.keyword) ++ ")"

end FieldError

namespace Diagnostic

/-- The diagnostic as it is shown. -/
def display (d : Diagnostic) : Text :=
  d.severity.word ++ ": " ++ d.subject.display ++ ": " ++ d.message

/-- The diagnostic of a field that a companion cannot reach. -/
def ofFieldError (e : FieldError) : Diagnostic := ⟨.error, .field e.owner e.name, e.message⟩

/-- The diagnostic of an owner whose artifact could not be produced. -/
def ofSinkError (owner : TypeName) (e : SinkError) : Diagnostic :=
  ⟨.error, .type owner, e.message⟩

/-- Whether a diagnostic is an error. -/
def isError (d : Diagnostic) : Bool := d.severity = .error

end Diagnostic

/-- The number of errors among the diagnostics. -/
def errorCount (ds : List Diagnostic) : Nat := ds.countP Diagnostic.isError

/-- Whether there is an error among the diagnostics. -/
def hasErrors (ds : List Diagnostic) : Bool := ds.any Diagnostic.isError

end InstanceState
