import InstanceState.Text.Basic

/-!
# TOML values

The values of a TOML document, and the ways in which its tables come to be.  A table remembers
how it was made, for that decides what may still be added to it.
-/

namespace InstanceState.Toml

/-- How a table was made. -/
inductive TableOrigin where
  /-- By a header of its own. -/
  | header
  /-- On the way to the table of a longer header. -/
  | implied
  /-- By a dotted key. -/
  | dotted
  /-- As a value in braces; nothing can be added to it. -/
  | inlined
deriving DecidableEq, Repr

/-- A value of a document. -/
inductive Value where
  | text (t : Text)
  | boolean (b : Bool)
  /-- An integer or a floating-point number, as it is written. -/
  | number (lexeme : Text)
  /-- A date, a time or both, as they are written. -/
  | moment (lexeme : Text)
  | array (items : List Value)
  /-- An array of tables that were made by headers in double brackets. -/
  | tables (items : List (List (Text × Value)))
  | table (origin : TableOrigin) (entries : List (Text × Value))

/-- The entries of a table, in the order in which they were made. -/
abbrev Table : Type := List (Text × Value)

namespace Table

/-- The table with another value for a key that it has. -/
def replace (t : Table) (key : Text) (v : Value) : Table :=
  t.map fun e => if e.1 = key then (key, v) else e

/-- The table with a value for a new key below the keys of `path`, which lead through tables that
dotted keys made. -/
def assign (t : Table) (path : List Text) (key : Text) (v : Value) : Option Table :=
  match path with
  | [] => if (t.lookup key).isSome then none else some (t ++ [(key, v)])
  | first :: rest =>
    match t.lookup first with
    | none => (assign [] rest key v).map fun sub => t ++ [(first, .table .dotted sub)]
    | some (.table .dotted sub) =>
      (assign sub rest key v).map fun sub => t.replace first (.table .dotted sub)
    | some _ => none

/-- Changes the last of the tables in an array of tables. -/
def changeLast (f : Table → Option Table) : List Table → Option (List Table)
  | [] => none
  | [t] => (f t).map fun t => [t]
  | t :: u :: rest => (changeLast f (u :: rest)).map (t :: ·)

/-- Changes the table to which `path` leads.  Tables on the way are made where there are none. -/
def changeAt (f : Table → Option Table) (t : Table) : List Text → Option Table
  | [] => f t
  | key :: rest =>
    match t.lookup key with
    | none => (changeAt f [] rest).map fun sub => t ++ [(key, .table .implied sub)]
    | some (.table .inlined _) => none
    | some (.table origin sub) =>
      (changeAt f sub rest).map fun sub => t.replace key (.table origin sub)
    | some (.tables items) =>
      (changeLast (fun sub => changeAt f sub rest) items).map fun items =>
        t.replace key (.tables items)
    | some _ => none

/-- Makes the table of a header. -/
def openTable (key : Text) (t : Table) : Option Table :=
  match t.lookup key with
  | none => some (t ++ [(key, .table .header [])])
  | some (.table .implied sub) => some (t.replace key (.table .header sub))
  | some _ => none

/-- Adds a table to the array of a header in double brackets. -/
def openArrayTable (key : Text) (t : Table) : Option Table :=
  match t.lookup key with
  | none => some (t ++ [(key, .tables [[]])])
  | some (.tables items) => some (t.replace key (.tables (items ++ [[]])))
  | some _ => none

end Table

end InstanceState.Toml
