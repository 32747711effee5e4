import InstanceState.Command.Basic
import InstanceState.Hierarchy.Assignable
import InstanceState.Resolution.Shape

/-!
# Resolution

The command of a declared type.  Rules are tried in a fixed order and the first that applies
counts: scalars, framework value types, arrays and lists by their element, descendants of the
parcelable base, and the fallback for every other type.
-/

namespace InstanceState

/-- What resolution depends on: the known types, and the type whose descendants are stored as
parcelables. -/
structure Resolver where
  graph : TypeGraph
  parcelableBase : Text

namespace Resolver

/-! ### Tables -/

/-- The names of the scalar types, primitive and boxed. -/
def scalarTable : List (Text × CommandKind) :=
  [("boolean", .boolean), ("Boolean", .boolean), ("byte", .byte), ("Byte", .byte),
   ("char", .char), ("Character", .char), ("double", .double), ("Double", .double),
   ("float", .float), ("Float", .float), ("int", .int), ("Integer", .int), ("long", .long),
   ("Long", .long), ("short", .short), ("Short", .short), ("String", .string),
   ("CharSequence", .charSequence)]

/-- The names of the primitive types. -/
def primitiveNames : List Text :=
  ["boolean", "byte", "char", "double", "float", "int", "long", "short"]

/-- The kind of a scalar type, whose name may be written with the package `java.lang`. -/
def scalarKind? (type : Text) : Option CommandKind :=
  scalarTable.lookup ((Text.after? "java.lang." type).getD type)

/-- The kind of the elements of an array type that has a kind of its own. -/
def arrayElementKind? (element : Text) : Option CommandKind :=
  (scalarKind? element).filter fun kind =>
    primitiveNames.contains element || kind = .string || kind = .charSequence

/-- The framework value types that are stored as parcelables but have kinds of their own. -/
def geometryTable : List (Text × CommandKind) :=
  [("android.graphics.Point", .point), ("android.graphics.PointF", .pointF),
   ("android.graphics.Rect", .rect), ("android.graphics.RectF", .rectF)]

/-- The command of a framework value type. -/
def frameworkCommand? (type : Text) : Option Command :=
  if type = ↑"android.os.Bundle" then some (.plain .bundle)
  else (geometryTable.lookup type).map fun kind => .typed kind type

/-- The list type with kinds of its own. -/
def arrayListName : Text := "java.util.ArrayList"

/-- The sparse array type with a kind of its own. -/
def sparseArrayName : Text := "android.util.SparseArray"

/-- The command of a list, by the kind of its elements. -/
def listCommand? (element : Text) : CommandKind → Option Command
  | .int => some (.plain .integerArrayList)
  | .string => some (.plain .stringArrayList)
  | .charSequence => some (.plain .charSequenceArrayList)
  | kind => if kind.isParcelable then some (.typed .parcelableArrayList element) else none

/-- The command of a type to which no rule on its shape applies. -/
def byAncestry (r : Resolver) (type : Text) : Command :=
  if r.graph.isAssignable type r.parcelableBase then .typed .parcelable type else .fallback type

/-! ### The rules -/

/-- The command of a declared type. -/
def resolve (r : Resolver) (type : Text) : Command :=
  match scalarKind? (Text.trim type), frameworkCommand? (Text.trim type) with
  | some kind, _ => .plain kind
  | none, some command => command
  | none, none =>
    match _h : TypeShape.parse type with
    | .array element =>
      match (arrayElementKind? element).bind CommandKind.arrayOf? with
      | some kind => .plain kind
      | none =>
        if (r.resolve element).kind.isParcelable then .typed .parcelableArray element
        else r.byAncestry (Text.trim type)
    | .parameterized base [element] =>
      if base = arrayListName then
        (listCommand? element (r.resolve element).kind).getD (r.byAncestry (Text.trim type))
      else if base = sparseArrayName ∧ (r.resolve element).kind.isParcelable then
        .typed .sparseParcelableArray element
      else r.byAncestry (Text.trim type)
    | _ => r.byAncestry (Text.trim type)
termination_by type.length
decreasing_by
  · exact TypeShape.length_lt_of_parse_array (by assumption)
  · exact TypeShape.length_lt_of_parse_parameterized (by assumption) (List.mem_singleton_self _)
  · exact TypeShape.length_lt_of_parse_parameterized (by assumption) (List.mem_singleton_self _)

end Resolver

end InstanceState
