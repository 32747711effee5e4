import InstanceState.Command.Basic
import InstanceState.TypeName

/-!
# Fields

An annotated field as it is declared, and the modifiers that keep a companion from reading or
assigning it.
-/

namespace InstanceState

/-- A modifier of a field that matters to its companion. -/
inductive Modifier where
  | finalField
  | privateField
  | staticField
deriving DecidableEq, Repr

namespace Modifier

/-- Every modifier, in the order in which a set of modifiers is written. -/
def all : List Modifier := [.finalField, .privateField, .staticField]

/-- The keyword of a modifier. -/
def keyword : Modifier → Text
  | .finalField => "final"
  | .privateField => "private"
  | .staticField => "static"

/-- The modifier of a keyword. -/
def ofKeyword? (t : Text) : Option Modifier := all.find? fun m => t = m.keyword

/-- The modifiers that a field must not have, in the order in which they are reported. -/
def forbidden : List Modifier := [.privateField, .staticField, .finalField]

end Modifier

/-- A set of modifiers. -/
structure Modifiers where
  isFinal : Bool := false
  isPrivate : Bool := false
  isStatic : Bool := false
deriving DecidableEq, Repr

namespace Modifiers

/-- Whether a modifier is in the set. -/
def has (s : Modifiers) : Modifier → Bool
  | .finalField => s.isFinal
  | .privateField => s.isPrivate
  | .staticField => s.isStatic

/-- The set with one more modifier. -/
def insert (s : Modifiers) : Modifier → Modifiers
  | .finalField => { s with isFinal := true }
  | .privateField => { s with isPrivate := true }
  | .staticField => { s with isStatic := true }

/-- The set of the modifiers in a list. -/
def ofList (ms : List Modifier) : Modifiers := ms.foldl insert {}

/-- The modifiers of the set, each once. -/
def toList (s : Modifiers) : List Modifier := Modifier.all.filter s.has

end Modifiers

/-- One annotated field. -/
structure Field where
  name : Text
  declaredType : Text
  /-- The type that declares the field. -/
  owner : TypeName
  /-- The declared package of the owner, if it is known; empty for the default package. -/
  package : Option Text := none
  modifiers : Modifiers := {}
deriving DecidableEq, Repr

/-- The modifiers of a field that it must not have. -/
def Field.violations (f : Field) : List Modifier := Modifier.forbidden.filter f.modifiers.has

/-- Whether a companion can read and assign the field. -/
def Field.isValid (f : Field) : Bool := f.violations.isEmpty

/-- A field together with the command of its declared type. -/
structure SavedField where
  field : Field
  command : Command
deriving DecidableEq, Repr

/-- The name of a saved field. -/
def SavedField.name (f : SavedField) : Text := f.field.name

end InstanceState
