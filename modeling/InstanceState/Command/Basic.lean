import InstanceState.Command.Kind

/-!
# Commands

A command says how one field is stored in a bundle and read back: its kind, and the type that
its retrieval is parameterized with.  `storage` and `retrieval` are the two Java expressions.
-/

namespace InstanceState

/-- A kind, with the type argument of its retrieval. -/
structure Command where
  kind : CommandKind
  typeArgument : Option Text
deriving DecidableEq, Repr

namespace Command

/-- The command of a kind without a type argument. -/
def plain (kind : CommandKind) : Command := ⟨kind, none⟩

/-- The command of a kind with a type argument. -/
def typed (kind : CommandKind) (type : Text) : Command := ⟨kind, some type⟩

/-- The command of a type that no other rule covers. -/
def fallback (type : Text) : Command := typed .serializable type

/-- The command as it is shown: the kind, and the type argument in angle brackets. -/
def display (c : Command) : Text :=
  match c.typeArgument with
  | some type => c.kind.name ++ "<" ++ type ++ ">"
  | none => c.kind.name

/-- The name of the method that stores the value. -/
def storageMethod (c : Command) : Text := "put" ++ c.kind.accessor

/-- The name of the method that gives the value back. -/
def retrievalMethod (c : Command) : Text := "get" ++ c.kind.accessor

/-- The expression that stores `value` in `bundle` under `key`. -/
def storage (c : Command) (bundle key value : Text) : Text :=
  bundle ++ "." ++ c.storageMethod ++ "(" ++ key ++ ", " ++ value ++ ")"

/-- The expression that reads back from `bundle` the value under `key`. -/
def retrieval (c : Command) (bundle key : Text) : Text :=
  let call := c.retrievalMethod ++ "(" ++ key ++ ")"
  match c.typeArgument with
  | none => bundle ++ "." ++ call
  | some type =>
    match c.kind.style with
    | .direct => bundle ++ "." ++ call
    | .witness => bundle ++ ".<" ++ type ++ ">" ++ call
    | .cast => "(" ++ type ++ ") " ++ bundle ++ "." ++ call
    | .arrayCast => "(" ++ type ++ "[]) " ++ bundle ++ "." ++ call

end Command

end InstanceState
