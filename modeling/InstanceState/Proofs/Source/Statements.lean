import InstanceState.Proofs.Source.Lines

/-!
# The statements of a companion

The bodies of the two methods of a companion as lists of statements, in place of their text.  What
stands between the prologue and the epilogue of a body depends on the fields and on their keys, and
not on the family.
-/

namespace InstanceState

namespace Command

/-- What a retrieval begins with: a cast to the type of the field, if its kind needs one. -/
def castText (c : Command) : Text :=
  match c.typeArgument, c.kind.style with
  | some type, .cast => "(" ++ type ++ ") "
  | some type, .arrayCast => "(" ++ type ++ "[]) "
  | _, _ => []

/-- The type argument of the accessor of a retrieval, if its kind needs one. -/
def witnessText (c : Command) : Text :=
  match c.typeArgument, c.kind.style with
  | some type, .witness => "<" ++ type ++ ">"
  | _, _ => []

theorem storage_eq (c : Command) (key name : Text) :
  c.storage Lifecycle.outBundle key (Companion.fieldExpression name) ++ ";"
    = "outState.put" ++ c.kind.accessor ++ "(" ++ key ++ ", target." ++ name ++ ");"
  := by
  unfold storage storageMethod Companion.fieldExpression Lifecycle.outBundle
  simp

theorem retrieval_eq (c : Command) (key : Text) :
  c.retrieval Lifecycle.inBundle key
    = c.castText ++ "savedInstanceState." ++ c.witnessText ++ "get" ++ c.kind.accessor ++ "("
      ++ key ++ ")"
  := by
  unfold retrieval castText witnessText retrievalMethod Lifecycle.inBundle
  cases c.typeArgument with
  | none => simp
  | some type => cases c.kind.style <;> simp

/-- A retrieval has a cast or a witness, and not both. -/
theorem castText_or_witnessText (c : Command) :
  c.castText = [] ∨ c.witnessText = []
  := by
  rw [castText, witnessText]
  cases c.typeArgument with
  | none => exact Or.inl rfl
  | some type => cases c.kind.style <;> simp

end Command

/-- A statement of a companion. -/
inductive Statement where
  /-- A new bundle for the state. -/
  | newBundle
  /-- The state of the parent class is stored. -/
  | storeState (accessor key : Text)
  /-- A field of the target is stored. -/
  | storeField (accessor key name : Text)
  /-- The bundle is returned. -/
  | returnBundle
  /-- The method ends here if it is given no bundle. -/
  | guardNull
  /-- The state is returned if it is not a bundle. -/
  | guardBundle
  /-- The state is read as a bundle. -/
  | castBundle
  /-- A field of the target is read back. -/
  | fetchField (name cast witness accessor key : Text)
  /-- The state of the parent class is read back and returned. -/
  | returnState (accessor key : Text)
deriving DecidableEq, Repr

namespace Statement

/-- The steps that write a statement. -/
def steps : Statement → List SourceStep
  | newBundle => [.line "Bundle outState = new Bundle();"]
  | storeState accessor key => [.line ("outState.put" ++ accessor ++ "(" ++ key ++ ", state);")]
  | storeField accessor key name =>
    [.line ("outState.put" ++ accessor ++ "(" ++ key ++ ", target." ++ name ++ ");")]
  | returnBundle => [.line "return outState;"]
  | guardNull => Companion.block "if (savedInstanceState == null)" [.line "return;"]
  | guardBundle => Companion.block "if (!(state instanceof Bundle))" [.line "return state;"]
  | castBundle => [.line "Bundle savedInstanceState = (Bundle) state;"]
  | fetchField name cast witness accessor key =>
    [.line ("target." ++ name ++ " = " ++ cast ++ "savedInstanceState." ++ witness ++ "get"
      ++ accessor ++ "(" ++ key ++ ");")]
  | returnState accessor key =>
    [.line ("return savedInstanceState.get" ++ accessor ++ "(" ++ key ++ ");")]

end Statement

namespace Companion

/-! ### The statements of the fields -/

/-- The statement that stores a field. -/
def storeOf (c : Companion) (f : SavedField) : Statement :=
  .storeField f.command.kind.accessor (c.keyExpression f.name) f.name

/-- The statement that reads a field back. -/
def fetchOf (c : Companion) (f : SavedField) : Statement :=
  .fetchField f.name f.command.castText f.command.witnessText f.command.kind.accessor
    (c.keyExpression f.name)

theorem saveStatement_eq (c : Companion) (f : SavedField) :
  (c.storeOf f).steps = [.line (c.saveStatement f)]
  := by
  unfold storeOf Statement.steps saveStatement
  rw [Command.storage_eq]

theorem restoreStatement_eq (c : Companion) (f : SavedField) :
  (c.fetchOf f).steps = [.line (c.restoreStatement f)]
  := by
  unfold fetchOf Statement.steps restoreStatement fieldExpression
  rw [Command.retrieval_eq]
  simp

/-! ### The bodies of the methods -/

/-- The statements before the fields are stored. -/
def saveOpening : Family → List Statement
  | .host => []
  | .view => [.newBundle, .storeState (CommandKind.accessor .parcelable) Lifecycle.superKeyName]

/-- The statements after the fields are stored. -/
def saveClosing : Family → List Statement
  | .host => []
  | .view => [.returnBundle]

/-- The body of the method that stores the fields. -/
def saveBody (c : Companion) : List Statement :=
  saveOpening c.family ++ c.fields.map c.storeOf ++ saveClosing c.family

/-- The statements before the fields are read back. -/
def restoreOpening : Family → List Statement
  | .host => [.guardNull]
  | .view => [.guardBundle, .castBundle]

/-- The statements after the fields are read back. -/
def restoreClosing : Family → List Statement
  | .host => []
  | .view => [.returnState (CommandKind.accessor .parcelable) Lifecycle.superKeyName]

/-- The body of the method that reads the fields back. -/
def restoreBody (c : Companion) : List Statement :=
  restoreOpening c.family ++ c.fields.map c.fetchOf ++ restoreClosing c.family

theorem flatMap_steps_of_eq_line {stmt : SavedField → Statement} {text : SavedField → Text}
    (h : ∀ f, (stmt f).steps = [.line (text f)]) (fields : List SavedField) :
  (fields.map stmt).flatMap Statement.steps = fields.map (.line ∘ text)
  := by
  rw [List.flatMap_map, funext h, Function.comp_def, List.map_eq_flatMap]

/-- The saving method is its signature and the statements of its body. -/
theorem saveMethod_eq (c : Companion) :
  c.saveMethod = block (c.lifecycle.saveSignature.fill c.layout.qualified)
    (c.saveBody.flatMap Statement.steps)
  := by
  rw [saveMethod, saveBody, List.flatMap_append, List.flatMap_append,
    flatMap_steps_of_eq_line c.saveStatement_eq, List.map_append, List.map_append, List.map_map,
    lifecycle]
  cases c.family with
  | host => rfl
  | view => rfl

/-- The restoring method is its signature and the statements of its body. -/
theorem restoreMethod_eq (c : Companion) :
  c.restoreMethod = block (c.lifecycle.restoreSignature.fill c.layout.qualified)
    (c.restoreBody.flatMap Statement.steps)
  := by
  rw [restoreMethod, restoreBody, List.flatMap_append, List.flatMap_append,
    flatMap_steps_of_eq_line c.restoreStatement_eq, List.map_append, List.map_append, List.map_map,
    lifecycle, ← List.append_assoc, ← List.append_assoc]
  cases c.family with
  | host => rfl
  | view => rfl

end Companion

end InstanceState
