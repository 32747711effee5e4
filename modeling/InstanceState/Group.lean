import InstanceState.Field
import InstanceState.Hierarchy.Family
import InstanceState.Roster

/-!
# Groups

The fields of one owner that its companion saves, in the order in which they were first found and
with one field for each name.  The package of the owner is the first that was declared, and its
family is decided at most once.
-/

namespace InstanceState

/-- The saved fields of one owner. -/
structure Group where
  owner : TypeName
  package : Option Text := none
  fields : List SavedField := []
  /-- The names that are taken, as a set. -/
  names : Roster Unit := .empty
  family : Option Family := none
deriving DecidableEq, Repr

namespace Group

/-- The group of an owner before any field is found. -/
def new (owner : TypeName) : Group := { owner }

/-- Records a declared package, unless one was recorded before. -/
def declarePackage (g : Group) (package : Option Text) : Group :=
  { g with package := g.package <|> package }

/-- Whether the group has no fields. -/
def isEmpty (g : Group) : Bool := g.fields.isEmpty

/-- Whether a field of the given name would be added. -/
def accepts (g : Group) (name : Text) : Bool := (g.names.find? name).isNone

/-- Adds a field at the end and takes its name, unless the name is taken. -/
def insert (g : Group) (f : SavedField) : Group :=
  if g.accepts f.name then
    { g with fields := g.fields ++ [f], names := g.names.insert f.name () }
  else g

/-- The family, for which `classify` is asked if it was not decided before, and the group that
records it. -/
def familyWithM {m : Type → Type} [Monad m] (g : Group) (classify : TypeName → m Family) :
    m (Family × Group) :=
  match g.family with
  | some family => pure (family, g)
  | none => do
    let family ← classify g.owner
    pure (family, { g with family := some family })

/-- The family, which `classify` decides if it was not decided before, and the group that
records it. -/
def familyWith (g : Group) (classify : TypeName → Family) : Family × Group :=
  Id.run (g.familyWithM fun owner => pure (classify owner))

/-- The layout of the owner by its recorded package. -/
def layout (g : Group) : Layout := g.owner.layout g.package

end Group

end InstanceState
