import InstanceState.Text.Blank

/-!
# Type names and layouts

The name of a declared type, and its split into a package and a class path.  The class path of a
nested class keeps the names of its outer classes.
-/

namespace InstanceState

/-- The canonical name of a declared type. -/
structure TypeName where
  text : Text
deriving DecidableEq, Repr

/-- The type name that a text gives, without the blank characters around it. -/
def TypeName.ofText (t : Text) : TypeName := ⟨Text.trim t⟩

/-- The view of a type name as a package and a class path. -/
structure Layout where
  /-- The whole name. -/
  qualified : Text
  /-- The package, unless it is the default package. -/
  package : Option Text
  /-- The name inside the package. -/
  classPath : Text
deriving DecidableEq, Repr

namespace TypeName

/-- The layout in which the class is what follows the last dot. -/
def lastSegmentLayout (name : Text) : Layout :=
  match Text.cutLast? '.' name with
  | some (package, path) => ⟨name, some package, path⟩
  | none => ⟨name, none, name⟩

/-- The layout in which the given package is the declared one.  A declared package that is not
followed by a dot and a class path in the name counts as not declared. -/
def declaredLayout (name package : Text) : Layout :=
  match Text.after? (package ++ ".") name with
  | some (c :: path) => ⟨name, some package, c :: path⟩
  | _ => lastSegmentLayout name

/-- The layout of a type whose declared package is given, if it is known.  The empty text
declares the default package. -/
def layout (name : TypeName) (declared : Option Text) : Layout :=
  match declared.map Text.trim with
  | none => lastSegmentLayout name.text
  | some [] => ⟨name.text, none, name.text⟩
  | some (c :: package) => declaredLayout name.text (c :: package)

end TypeName

namespace Layout

/-- The last name of the class path. -/
def simpleName (l : Layout) : Text :=
  match Text.cutLast? '.' l.classPath with
  | some (_, name) => name
  | none => l.classPath

/-- The simple name of the companion: the names of the class path joined by dollar signs, and the
suffix. -/
def companionName (l : Layout) (suffix : Text) : Text :=
  Text.substitute '.' '$' l.classPath ++ suffix

/-- The qualified name of the companion. -/
def artifactName (l : Layout) (suffix : Text) : Text :=
  match l.package with
  | some package => package ++ "." ++ l.companionName suffix
  | none => l.companionName suffix

end Layout

end InstanceState
