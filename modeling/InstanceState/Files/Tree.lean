import InstanceState.Files.System

/-!
# File trees

A file system in memory.  Names lead to directories and to numbered files; the octets of a file
belong to its number, so that an open file stays the same file when its name changes or goes
away.  A rename puts one entry in the place of another in one step.
-/

namespace InstanceState

/-- Where something stands in a tree: the names that lead to it from the root. -/
abbrev Place : Type := List Text

/-- What a place holds. -/
inductive Entry where
  | directory
  | file (number : Nat)
deriving DecidableEq, Repr

/-- A file system in memory. -/
structure FileTree where
  /-- The entries below the root. -/
  entries : List (Place × Entry) := []
  /-- The octets of the files, by number. -/
  contents : List (List UInt8) := []
  /-- Where paths that do not begin at the root begin. -/
  workplace : Place := []
deriving Repr

/-- A file that is open for writing, and the offset of the next octet. -/
structure OpenFile where
  number : Nat
  offset : Nat := 0
deriving DecidableEq, Repr

namespace FileTree

/-! ### Entries -/

/-- What a place holds, if anything. -/
def find? (t : FileTree) (place : Place) : Option Entry :=
  if place = [] then some .directory else t.entries.lookup place

/-- The tree in which a place holds an entry. -/
def put (t : FileTree) (place : Place) (entry : Entry) : FileTree :=
  { t with entries := (place, entry) :: t.entries.filter fun e => e.1 ≠ place }

/-- The tree in which a place, and all places below it, hold nothing. -/
def erase (t : FileTree) (place : Place) : FileTree :=
  { t with entries := t.entries.filter fun e => !place.isPrefixOf e.1 }

/-- The octets of the file of a number. -/
def octets (t : FileTree) (number : Nat) : List UInt8 := (t.contents[number]?).getD []

/-- Whether a place holds a directory with something in it. -/
def isOccupied (t : FileTree) (place : Place) : Bool :=
  t.entries.any fun e => place.isPrefixOf e.1 && e.1 ≠ place

/-! ### Paths -/

/-- The number of octets of the longest name. -/
def longestName : Nat := 255

/-- The place of a list of names, read from a directory.  All but the last name must lead to
directories. -/
def follow (t : FileTree) (place : Place) : List Text → Except FileError Place
  | [] => .ok place
  | name :: rest =>
    if name = ↑".." then t.follow place.dropLast rest
    else if longestName < (Utf8.encode name).length then .error .nameTooLong
    else if rest = [] then .ok (place ++ [name])
    else
      match t.find? (place ++ [name]) with
      | some .directory => t.follow (place ++ [name]) rest
      | some (.file _) => .error .notADirectory
      | none => .error .notFound

/-- The place where a path begins. -/
def start (t : FileTree) (path : Path) : Place := if path.isRooted then [] else t.workplace

/-- The number of octets of the longest path. -/
def longestPath : Nat := 4095

/-- Why a path cannot be looked up at all, if it cannot. -/
def pathFault? (path : Path) : Option FileError :=
  if '\x00' ∈ path then some .invalidPath
  else if longestPath < (Utf8.encode path).length then some .nameTooLong
  else none

/-- The place of a path. -/
def locate (t : FileTree) (path : Path) : Except FileError Place :=
  match pathFault? path with
  | some fault => .error fault
  | none => if path = [] then .error .notFound else t.follow (t.start path) path.names

/-! ### Operations -/

/-- The octets of the file of a path. -/
def read (t : FileTree) (path : Path) : Except FileError (List UInt8) := do
  let place ← t.locate path
  match t.find? place with
  | none => .error .notFound
  | some .directory => .error .isADirectory
  | some (.file number) =>
    if path.wantsDirectory then .error .notADirectory else .ok (t.octets number)

/-- Makes directories for the names in turn, up to the first that cannot be one. -/
def makeDirs (t : FileTree) (place : Place) : List Text → Except FileError Unit × FileTree
  | [] => (.ok (), t)
  | name :: rest =>
    if name = ↑".." then t.makeDirs place.dropLast rest
    else
      match t.find? (place ++ [name]) with
      | some .directory => t.makeDirs (place ++ [name]) rest
      | some (.file _) => (.error (if rest = [] then .alreadyExists else .notADirectory), t)
      | none =>
        if longestName < (Utf8.encode name).length then (.error .nameTooLong, t)
        else (t.put (place ++ [name]) .directory).makeDirs (place ++ [name]) rest

/-- Makes the directory of a path and those above it. -/
def createDirAll (t : FileTree) (path : Path) : Except FileError Unit × FileTree :=
  match pathFault? path with
  | some fault => (.error fault, t)
  | none => t.makeDirs (t.start path) path.names

/-- An empty file of a path, open for writing. -/
def create (t : FileTree) (path : Path) : Except FileError (OpenFile × FileTree) := do
  let place ← t.locate path
  match t.find? place with
  | some .directory => .error .isADirectory
  | some (.file number) =>
    if path.wantsDirectory then .error .notADirectory
    else .ok ({ number }, { t with contents := t.contents.set number [] })
  | none =>
    if path.wantsDirectory then .error .isADirectory
    else
      let number := t.contents.length
      .ok ({ number }, { t.put place (.file number) with contents := t.contents ++ [[]] })

/-- Octets with a chunk written over them at an offset; a gap before it is filled with zeros. -/
def overwrite (octets : List UInt8) (offset : Nat) (chunk : List UInt8) : List UInt8 :=
  octets.take offset ++ List.replicate (offset - octets.length) 0 ++ chunk
    ++ octets.drop (offset + chunk.length)

/-- Writes a chunk to an open file. -/
def write (t : FileTree) (file : OpenFile) (chunk : List UInt8) : OpenFile × FileTree :=
  ({ file with offset := file.offset + chunk.length },
   { t with contents :=
      t.contents.set file.number (overwrite (t.octets file.number) file.offset chunk) })

/-- The tree in which what `source` held stands at `target`, with all that is below it. -/
def move (t : FileTree) (source target : Place) : FileTree :=
  { t with entries :=
      ((t.erase target).entries.map fun e =>
        if source.isPrefixOf e.1 then (target ++ e.1.drop source.length, e.2) else e) }

/-- Renames an entry.  A file may take the place of a file, and a directory that of an empty
directory. -/
def rename (t : FileTree) (source target : Path) : Except FileError FileTree := do
  let origin ← t.locate source
  let destination ← t.locate target
  match t.find? origin, t.find? destination with
  | none, _ => .error .notFound
  | some (.file number), found =>
    if source.wantsDirectory ∨ target.wantsDirectory then .error .notADirectory
    else
      match found with
      | some .directory => .error .isADirectory
      | some (.file number') => .ok (if number = number' then t else t.move origin destination)
      | none => .ok (t.move origin destination)
  | some .directory, found =>
    if origin = destination then .ok t
    else if origin = [] ∨ origin.isPrefixOf destination then .error .invalidPath
    else
      match found with
      | some (.file _) => .error .notADirectory
      | some .directory =>
        if t.isOccupied destination then .error .notEmpty else .ok (t.move origin destination)
      | none => .ok (t.move origin destination)

/-- Removes the file of a path. -/
def remove (t : FileTree) (path : Path) : Except FileError FileTree := do
  let place ← t.locate path
  match t.find? place with
  | none => .error .notFound
  | some .directory => .error .isADirectory
  | some (.file _) => if path.wantsDirectory then .error .notADirectory else .ok (t.erase place)

/-- Removes what a path names, with all that is below it. -/
def removeAll (t : FileTree) (path : Path) : FileTree :=
  match t.locate path with
  | .ok place => t.erase place
  | .error _ => t

/-- Puts a file of the given octets at a path, in directories that are made if need be. -/
def supply (t : FileTree) (path : Path) (octets : List UInt8) : FileTree :=
  let t := (t.createDirAll path.parent).2
  match t.create path with
  | .ok (file, t) => (t.write file octets).2
  | .error _ => t

/-- What stands below the place where paths begin, by the names that lead there. -/
def listing (t : FileTree) : List (Place × Entry) :=
  t.entries.filterMap fun e =>
    if t.workplace.isPrefixOf e.1 ∧ e.1 ≠ t.workplace then
      some (e.1.drop t.workplace.length, e.2)
    else none

/-! ### The file system -/

/-- Runs an operation that changes the tree only if it succeeds. -/
def attempt {α : Type} (f : FileTree → Except FileError (α × FileTree)) :
    StateM FileTree (Except FileError α) := fun t =>
  match f t with
  | .ok (a, t) => (.ok a, t)
  | .error e => (.error e, t)

/-- The file system that a tree is. -/
def system : FileSystem (StateM FileTree) OpenFile where
  read path := do return (← get).read path
  createDirAll path := fun t => t.createDirAll path
  create path := attempt fun t => t.create path
  write file chunk := fun t =>
    let (file, t) := t.write file chunk
    ((.ok (.whole chunk), file), t)
  sync _ := pure (.ok ())
  rename source target := attempt fun t => (t.rename source target).map ((), ·)
  remove path := attempt fun t => (t.remove path).map ((), ·)

end FileTree

end InstanceState
