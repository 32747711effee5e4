import InstanceState.Hierarchy.Assignable
import InstanceState.Text.Name

/-!
# Families

The two shapes of the lifecycle methods, and the choice between them by the ancestry of the owner.
-/

namespace InstanceState

/-- The shape of the lifecycle methods of a companion. -/
inductive Family where
  /-- The methods are given the bundle. -/
  | host
  /-- The methods wrap and unwrap the state of a view's parent class. -/
  | view
deriving DecidableEq, Repr

namespace Family

/-- The name of a family. -/
def name : Family → Text
  | .host => "Host"
  | .view => "View"

/-- The family of a name, in any mixture of upper and lower case. -/
def ofName? (t : Text) : Option Family := [.host, .view].find? fun f => t.sameLetters f.name

end Family

/-- The family of an owner: that of the views if it can be used as one of the bases. -/
def TypeGraph.family (g : TypeGraph) (owner : TypeName) (viewBases : List Text) : Family :=
  if viewBases.any fun base => g.isAssignable owner.text base then .view else .host

end InstanceState
