import InstanceState.Model.Basic

/-!
# Written models

The JSON value that describes a model, in which what is empty is left out.
-/

namespace InstanceState.Model

/-- The entry of a key, if there is something to say. -/
def entryOf (key : Text) (v : Option Json.Value) : List (Text × Json.Value) :=
  v.toList.map fun v => (key, v)

/-- The array of the given values, if there are any. -/
def nonemptyArray? (items : List Json.Value) : Option Json.Value :=
  if items.isEmpty then none else some (.array items)

/-- The value that describes a declared type. -/
def typeValue (d : DeclaredType) : Json.Value :=
  .ofFields
    (entryOf "name" (some (.ofText d.name.text))
      ++ entryOf "superclass" (d.superclass.map fun s => .ofText s.text)
      ++ entryOf "interfaces" (nonemptyArray? (d.interfaces.map fun s => .ofText s.text)))

/-- The value that describes a field. -/
def fieldValue (f : Field) : Json.Value :=
  .ofFields
    (entryOf "name" (some (.ofText f.name))
      ++ entryOf "declared_type" (some (.ofText f.declaredType))
      ++ entryOf "enclosing_type" (some (.ofText f.owner.text))
      ++ entryOf "package" (f.package.map .ofText)
      ++ entryOf "modifiers" (nonemptyArray? (f.modifiers.toList.map fun m => .ofText m.keyword)))

/-- The value that describes a model. -/
def toValue (m : Model) : Json.Value :=
  .ofFields
    (entryOf "types" (some (.array (m.types.map typeValue)))
      ++ entryOf "fields" (some (.array (m.fields.map fieldValue))))

/-- The document that describes a model. -/
def write (m : Model) : Text := m.toValue.write

end InstanceState.Model
