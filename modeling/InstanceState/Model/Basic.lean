import InstanceState.Field
import InstanceState.Files.System
import InstanceState.Hierarchy.Graph
import InstanceState.Json.Reader

/-!
# Models

A model is what a program knows of the classes that it generates companions for: their declared
types and their annotated fields.  It is read from a JSON document, in which each record is an
object or an array of its values in order; keys and values that a record may leave out have
defaults.
-/

namespace InstanceState

/-- Declared types and annotated fields. -/
structure Model where
  types : List DeclaredType := []
  fields : List Field := []
deriving DecidableEq, Repr

/-- Why a model document gives no model. -/
inductive ModelError where
  | unreadable (cause : FileError)
  | malformed
deriving DecidableEq, Repr

/-- The error as it is reported for the document of a path. -/
def ModelError.message (path : Path) : ModelError → Text
  | .unreadable cause => "failed to read model '" ++ path ++ "': " ++ cause.message
  | .malformed => "failed to parse model '" ++ path ++ "': malformed document"

namespace Model

/-- The framework types, extended with the types of the model. -/
def graph (m : Model) : TypeGraph := TypeGraph.stock.extend m.types

/-! ### Records -/

/-- The values of a record that were given so far, by key. -/
abbrev Given : Type := List (Text × Json.Value)

/-- The values after one more entry of an object.  No key may be given twice; a key that the
record does not have is refused by a closed record and ignored by an open one. -/
def giveEntry (keys : List Text) (closed : Bool) (given : Given) :
    Option Text × Json.Value → Option Given
  | (none, _) => none
  | (some key, v) =>
    if keys.contains key then
      if (given.lookup key).isSome then none else some (given ++ [(key, v)])
    else if closed then none
    else some given

/-- The values of a record. -/
def record? (keys : List Text) (closed : Bool) : Json.Value → Option Given
  | .object entries => entries.foldlM (giveEntry keys closed) []
  | .array items => if items.length ≤ keys.length then some (keys.zip items) else none
  | _ => none

/-- The value of a key that must be given. -/
def required? {α : Type} (given : Given) (key : Text) (decode : Json.Value → Option α) :
    Option α := (given.lookup key).bind decode

/-- The value of a key, or a default where it is not given. -/
def optional? {α : Type} (given : Given) (key : Text) (default : α)
    (decode : Json.Value → Option α) : Option α :=
  match given.lookup key with
  | none => some default
  | some v => decode v

/-- The text that a value is. -/
def text? : Json.Value → Option Text
  | .string t => t
  | _ => none

/-- The text that a value is, if it is not null. -/
def nullableText? : Json.Value → Option (Option Text)
  | .null => some none
  | v => (text? v).map some

/-- The items of an array, each decoded. -/
def list? {α : Type} (decode : Json.Value → Option α) : Json.Value → Option (List α)
  | .array items => items.mapM decode
  | _ => none

/-- A modifier: its keyword, or an object whose only entry is the keyword with null. -/
def modifier? : Json.Value → Option Modifier
  | .string t => t.bind Modifier.ofKeyword?
  | .object [(key, .null)] => key.bind Modifier.ofKeyword?
  | _ => none

/-! ### Decoding -/

/-- The keys of a declared type, in order. -/
def typeKeys : List Text := ["name", "superclass", "interfaces"]

/-- The keys of a field, in order. -/
def fieldKeys : List Text :=
  ["name", "declared_type", "enclosing_type", "package", "modifiers"]

/-- The keys of a model, in order. -/
def modelKeys : List Text := ["types", "fields"]

/-- The type name that a value is, exactly as it is written. -/
def typeName? (v : Json.Value) : Option TypeName := (text? v).map TypeName.mk

/-- The declared type that a value describes. -/
def declaredType? (v : Json.Value) : Option DeclaredType := do
  let given ← record? typeKeys false v
  let name ← required? given "name" typeName?
  let superclass ← optional? given "superclass" none nullableText?
  let interfaces ← optional? given "interfaces" [] (list? typeName?)
  return ⟨name, superclass.map TypeName.mk, interfaces⟩

/-- The field that a value describes. -/
def field? (v : Json.Value) : Option Field := do
  let given ← record? fieldKeys false v
  let name ← required? given "name" text?
  let declaredType ← required? given "declared_type" text?
  let owner ← required? given "enclosing_type" typeName?
  let package ← optional? given "package" none nullableText?
  let modifiers ← optional? given "modifiers" [] (list? modifier?)
  return ⟨name, declaredType, owner, package, .ofList modifiers⟩

/-- The model that a value describes. -/
def ofValue? (v : Json.Value) : Option Model := do
  let given ← record? modelKeys true v
  let types ← optional? given "types" [] (list? declaredType?)
  let fields ← optional? given "fields" [] (list? field?)
  return ⟨types, fields⟩

/-- The model that a document describes. -/
def parse (document : Text) : Option Model := (Json.parse document).bind ofValue?

/-- The model of the document of a path. -/
def load {m : Type → Type} [Monad m] {F : Type} (fs : FileSystem m F) (path : Path) :
    m (Except ModelError Model) := do
  match ← fs.readText path with
  | .error cause => pure (.error (.unreadable cause))
  | .ok document =>
    match parse document with
    | none => pure (.error .malformed)
    | some model => pure (.ok model)

end Model

end InstanceState
