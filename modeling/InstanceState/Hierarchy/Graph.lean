import InstanceState.TypeName

/-!
# Type graphs

The declared types that are known, each with its direct supertypes.  `TypeGraph.stock` is the
graph of the framework types on which generation relies.
-/

namespace InstanceState

/-- A declared type and its direct supertypes. -/
structure DeclaredType where
  name : TypeName
  superclass : Option TypeName := none
  interfaces : List TypeName := []
deriving DecidableEq, Repr

/-- The direct supertypes: the superclass, then the interfaces in order of declaration. -/
def DeclaredType.supertypes (d : DeclaredType) : List TypeName :=
  d.superclass.toList ++ d.interfaces

/-- The known types; of two declarations of one name the first in the list counts. -/
structure TypeGraph where
  declarations : List DeclaredType
deriving DecidableEq, Repr

namespace TypeGraph

/-- The graph that knows no type. -/
def empty : TypeGraph := ⟨[]⟩

/-- The graph with one more declaration, which replaces an earlier one of the same name. -/
def insert (g : TypeGraph) (d : DeclaredType) : TypeGraph := ⟨d :: g.declarations⟩

/-- The graph with each of the declarations inserted in turn. -/
def extend (g : TypeGraph) (ds : List DeclaredType) : TypeGraph := ds.foldl insert g

/-- The declaration of exactly the given name. -/
def find? (g : TypeGraph) (name : Text) : Option DeclaredType :=
  g.declarations.find? fun d => d.name.text = name

/-- Whether a type of exactly the given name is known. -/
def contains (g : TypeGraph) (name : Text) : Bool := (g.find? name).isSome

theorem find?_empty (name : Text) :
  empty.find? name = none
  := rfl

theorem find?_insert (g : TypeGraph) (d : DeclaredType) (name : Text) :
  (g.insert d).find? name = if d.name.text = name then some d else g.find? name
  := by
  by_cases h : d.name.text = name <;> simp [find?, insert, h]

theorem name_of_find? {g : TypeGraph} {name : Text} {d : DeclaredType}
    (h : g.find? name = some d) :
  d.name.text = name
  := by
  simpa using List.find?_some h

theorem mem_of_find? {g : TypeGraph} {name : Text} {d : DeclaredType}
    (h : g.find? name = some d) :
  d ∈ g.declarations
  := List.mem_of_find?_eq_some h

/-! ### The framework types -/

/-- A type declared with the given names. -/
def declare (name : Text) (superclass : Option Text) (interfaces : List Text) : DeclaredType :=
  ⟨.ofText name, superclass.map .ofText, interfaces.map .ofText⟩

/-- The root of all classes. -/
def objectName : Text := "java.lang.Object"

/-- The interface of the types that are stored as parcelables. -/
def parcelableName : Text := "android.os.Parcelable"

/-- The declarations of the framework types. -/
def stockDeclarations : List DeclaredType :=
  [declare objectName none [],
   declare parcelableName none [],
   declare "java.io.Serializable" none [],
   declare "android.os.BaseBundle" (some objectName) [],
   declare "android.os.Bundle" (some "android.os.BaseBundle")
     [parcelableName, "java.lang.Cloneable"],
   declare "android.graphics.Point" (some objectName) [parcelableName],
   declare "android.graphics.PointF" (some objectName) [parcelableName],
   declare "android.graphics.Rect" (some objectName) [parcelableName],
   declare "android.graphics.RectF" (some objectName) [parcelableName],
   declare "android.content.Context" (some objectName) [],
   declare "android.content.ContextWrapper" (some "android.content.Context") [],
   declare "android.view.ContextThemeWrapper" (some "android.content.ContextWrapper") [],
   declare "android.app.Activity" (some "android.view.ContextThemeWrapper") [],
   declare "android.app.Fragment" (some objectName) [],
   declare "android.view.View" (some objectName) [],
   declare "android.view.ViewGroup" (some "android.view.View") [],
   declare "android.widget.TextView" (some "android.view.View") [],
   declare "android.widget.ImageView" (some "android.view.View") [],
   declare "android.widget.FrameLayout" (some "android.view.ViewGroup") [],
   declare "android.widget.LinearLayout" (some "android.view.ViewGroup") [],
   declare "android.widget.RelativeLayout" (some "android.view.ViewGroup") []]

/-- The graph of the framework types. -/
def stock : TypeGraph := empty.extend stockDeclarations

end TypeGraph

end InstanceState
