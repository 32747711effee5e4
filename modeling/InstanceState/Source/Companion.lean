import InstanceState.Field
import InstanceState.Source.Lifecycle
import InstanceState.Source.Step
import InstanceState.Text.Literal
import InstanceState.Text.Utf8

/-!
# Companions

The companion class of an owner: one method that stores the fields in a bundle, and one that
reads them back.  `Companion.steps` is its source text as steps, and depends on nothing but the
companion.
-/

namespace InstanceState

/-- What a companion class is made from. -/
structure Companion where
  /-- The owner. -/
  layout : Layout
  /-- What the name of the companion adds to the owner's. -/
  suffix : Text
  /-- Whether the keys begin with the name of the companion. -/
  namespaceKeys : Bool
  family : Family
  fields : List SavedField
deriving DecidableEq, Repr

namespace Companion

/-- The first line of every companion. -/
def header : Text := "// Generated by icicle. Do not modify!"

/-- The qualified name of the companion. -/
def artifact (c : Companion) : Text := c.layout.artifactName c.suffix

/-- The fixed text of the companion. -/
def lifecycle (c : Companion) : Lifecycle := .ofFamily c.family

/-! ### Keys -/

/-- The common beginning of the keys, where they have one. -/
def baseKey (c : Companion) : Text := c.artifact ++ "."

/-- The key of the state of the parent class. -/
def superKey (c : Companion) : Text := c.artifact ++ "$$SUPER"

/-- The expression for the key of a field. -/
def keyExpression (c : Companion) (name : Text) : Text :=
  if c.namespaceKeys then Lifecycle.baseKeyName ++ " + " ++ Literal.quote name
  else Literal.quote name

/-- The declaration of a constant text. -/
def constant (name value : Text) : Text :=
  "private static final String " ++ name ++ " = " ++ Literal.quote value ++ ";"

/-- The declarations of the constants for keys. -/
def constants (c : Companion) : List Text :=
  (if c.namespaceKeys then [constant Lifecycle.baseKeyName c.baseKey] else [])
    ++ (if c.lifecycle.needsSuperKey then [constant Lifecycle.superKeyName c.superKey] else [])

/-! ### Statements -/

/-- The expression for the value of a field. -/
def fieldExpression (name : Text) : Text := "target." ++ name

/-- The statement that stores a field. -/
def saveStatement (c : Companion) (f : SavedField) : Text :=
  f.command.storage Lifecycle.outBundle (c.keyExpression f.name) (fieldExpression f.name) ++ ";"

/-- The statement that reads a field back. -/
def restoreStatement (c : Companion) (f : SavedField) : Text :=
  fieldExpression f.name ++ " = "
    ++ f.command.retrieval Lifecycle.inBundle (c.keyExpression f.name) ++ ";"

/-! ### The class -/

/-- The steps of a block. -/
def block (opening : Text) (body : List SourceStep) : List SourceStep :=
  .openBlock opening :: (body ++ [.closeBlock])

/-- The method that stores the fields. -/
def saveMethod (c : Companion) : List SourceStep :=
  block (c.lifecycle.saveSignature.fill c.layout.qualified)
    ((c.lifecycle.savePrologue ++ c.fields.map c.saveStatement ++ c.lifecycle.saveEpilogue).map
      .line)

/-- The method that reads the fields back. -/
def restoreMethod (c : Companion) : List SourceStep :=
  block (c.lifecycle.restoreSignature.fill c.layout.qualified)
    (block ("if (" ++ c.lifecycle.guardCondition ++ ")") [.line c.lifecycle.guardExit]
      ++ (c.lifecycle.restorePrologue ++ c.fields.map c.restoreStatement
        ++ c.lifecycle.restoreEpilogue).map .line)

/-- The lines before the class. -/
def preamble (c : Companion) : List SourceStep :=
  .line header
    :: (c.layout.package.toList.map fun package => .line ("package " ++ package ++ ";"))
    ++ .blank :: (c.lifecycle.imports.map fun name => .line ("import " ++ name ++ ";"))
    ++ [.blank]

/-- The constants of the class, with a blank line after them. -/
def constantSteps (c : Companion) : List SourceStep :=
  if c.constants.isEmpty then [] else c.constants.map .line ++ [.blank]

/-- The source text, as steps. -/
def steps (c : Companion) : List SourceStep :=
  c.preamble
    ++ block ("public class " ++ c.layout.companionName c.suffix)
      (c.constantSteps ++ c.saveMethod ++ .blank :: c.restoreMethod)

/-- The source text. -/
def source (c : Companion) : Text := sourceText c.steps

/-- The octets of the source text, in the pieces in which they are written. -/
def chunks (c : Companion) : List (List UInt8) := (sourceChunks 0 c.steps).map Utf8.encode

end Companion

end InstanceState
