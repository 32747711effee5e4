import InstanceState.Text.Basic

/-!
# Paths

A path is a text in which slashes separate the names.  Pushing a segment on a path is purely
lexical: nothing is looked up and nothing is normalised.
-/

namespace InstanceState

/-- The text of a path. -/
abbrev Path : Type := Text

namespace Path

/-- The path with one more segment.  A segment that begins with a slash replaces the path, and a
slash is put between the two where the path does not end in one. -/
def push (path segment : Text) : Path :=
  if segment.head? = some '/' then segment
  else if path.isEmpty ∨ path.getLast? = some '/' then path ++ segment
  else path ++ '/' :: segment

/-- Whether a path begins at the root. -/
def isRooted (path : Path) : Bool := path.head? = some '/'

/-- Whether a name is empty or stands for the directory that it is looked up in. -/
def isIdle (name : Text) : Bool := name.isEmpty || name = ['.']

/-- The path without its last name.  The idle names before that go as well, apart from one with
which the path begins. -/
def parent (path : Path) : Path :=
  match Text.pieces '/' path with
  | first :: second :: rest =>
    let above := ((second :: rest).dropLast.reverse.dropWhile isIdle).reverse
    if path.isRooted ∧ above.isEmpty then ['/'] else Text.joinWith "/" (first :: above)
  | _ => []

/-- Whether a path says that what it names is a directory. -/
def wantsDirectory (path : Path) : Bool := (Text.pieces '/' path).getLast?.any isIdle

/-- The names of a path, without the idle ones. -/
def names (path : Path) : List Text := (Text.pieces '/' path).filter fun name => !isIdle name

/-- Whether two paths have the same names; a leading `.` counts as a name. -/
def equivalent (p q : Path) : Bool :=
  p.isRooted = q.isRooted && p.names = q.names && startsHere p = startsHere q
where
  /-- Whether the first name stands for the directory itself. -/
  startsHere (path : Path) : Bool := (Text.pieces '/' path).head? = some ['.']

end Path

end InstanceState
