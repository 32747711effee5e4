import InstanceState.Proofs.Source.Rendering
import Mathlib.Data.List.Count
import Mathlib.Data.List.Nodup

/-!
# The lines of the fields

A line that stores a field, or reads one back, tells the name of the field, since the name stands
in it as a literal.  So each of them occurs once in its method if no two fields have one name.
-/

namespace InstanceState

open SourceStep

namespace Companion

variable {c : Companion}

/-! ### Lines tell their field -/

/-- What the key expressions begin with. -/
def keyPrefix (c : Companion) : Text :=
  if c.namespaceKeys then Lifecycle.baseKeyName ++ " + " else []

theorem keyExpression_eq (c : Companion) (name : Text) :
  c.keyExpression name = c.keyPrefix ++ Literal.quote name
  := by
  rw [keyExpression, keyPrefix]
  split
  · rfl
  · rfl

/-- Key expressions of different names are told apart by what they begin with. -/
theorem keyExpression_append_inj {name name' x y : Text}
    (h : c.keyExpression name ++ x = c.keyExpression name' ++ y) :
  name = name' ∧ x = y
  := by
  rw [keyExpression_eq, keyExpression_eq, List.append_assoc, List.append_assoc] at h
  apply Literal.quote_append_inj (List.append_cancel_left h)

theorem openParen_not_mem_accessor (kind : CommandKind) :
  '(' ∉ kind.accessor
  := by
  cases kind <;> decide

/-- Calls of accessors are told apart by what they begin with. -/
theorem accessor_append_inj {kind kind' : CommandKind} {x y : Text}
    (h : kind.accessor ++ '(' :: x = kind'.accessor ++ '(' :: y) :
  kind.accessor = kind'.accessor ∧ x = y
  := by
  have hcut : ∀ (kind : CommandKind) (t : Text),
      Text.cutFirst? '(' (kind.accessor ++ '(' :: t) = some (kind.accessor, t) := by
    intro kind t
    apply Text.cutFirst?_eq_some_iff.2 ⟨rfl, openParen_not_mem_accessor kind⟩
  have hboth := hcut kind x
  rw [h, hcut, Option.some.injEq, Prod.mk.injEq] at hboth
  exact ⟨hboth.1.symm, hboth.2.symm⟩

theorem saveStatement_shape (c : Companion) (f : SavedField) :
  c.saveStatement f = "outState.put" ++ (f.command.kind.accessor ++ '(' :: (c.keyExpression f.name
    ++ (", target." ++ f.name ++ ");")))
  := by
  rw [saveStatement, Command.storage_eq]
  generalize f.command.kind.accessor = accessor
  generalize c.keyExpression f.name = key
  simp

/-- A statement that stores a field tells its name. -/
theorem name_eq_of_saveStatement_eq {f f' : SavedField}
    (h : c.saveStatement f = c.saveStatement f') :
  f.name = f'.name
  := by
  rw [saveStatement_shape, saveStatement_shape] at h
  obtain ⟨-, hcall⟩ := accessor_append_inj (List.append_cancel_left h)
  obtain ⟨hname, -⟩ := keyExpression_append_inj hcall
  exact hname

/-- What stands before the literal of the name when a field is read back. -/
def restoreStem (c : Companion) (f : SavedField) : Text :=
  fieldExpression f.name ++ " = " ++ (f.command.castText ++ "savedInstanceState."
    ++ f.command.witnessText ++ "get" ++ f.command.kind.accessor ++ "(" ++ c.keyPrefix)

theorem restoreStatement_shape (c : Companion) (f : SavedField) :
  c.restoreStatement f = c.restoreStem f ++ Literal.quote f.name ++ ")" ++ ";"
  := by
  have hgroup : ∀ a x p q r s : Text,
      a ++ (x ++ (p ++ q) ++ r) ++ s = a ++ (x ++ p) ++ q ++ r ++ s := by
    intro a x p q r s
    simp only [List.append_assoc]
  rw [restoreStatement, Command.retrieval_eq, keyExpression_eq, restoreStem, hgroup]

theorem getLast?_restoreStem (c : Companion) (f : SavedField) :
  (c.restoreStem f).getLast? ≠ some '\\'
  := by
  have hlast : ∀ a b : Text, (a ++ (b ++ "(" ++ c.keyPrefix)).getLast? ≠ some '\\' := by
    intro a b h
    rw [List.getLast?_append, List.getLast?_append, keyPrefix] at h
    split at h
    · cases h
    · rw [List.getLast?_append] at h
      cases h
  apply hlast

/-- A statement that reads a field back tells its name. -/
theorem name_eq_of_restoreStatement_eq {f f' : SavedField}
    (h : c.restoreStatement f = c.restoreStatement f') :
  f.name = f'.name
  := by
  rw [restoreStatement_shape, restoreStatement_shape] at h
  apply Literal.append_quote_inj (getLast?_restoreStem c f) (getLast?_restoreStem c f')
  apply List.append_cancel_right (List.append_cancel_right h)

/-! ### Each line occurs once -/

open Statement

/-- The line of a field occurs once in a method if it tells the name of the field and differs from
all other lines. -/
theorem count_methodLines {signature : Text} {opening closing : List Statement}
    {fields : List SavedField} {stmt : SavedField → Statement} {text : SavedField → Text}
    (hsteps : ∀ f, (stmt f).steps = [.line (text f)])
    (hname : ∀ f f', text f = text f' → f.name = f'.name)
    (hnames : (fields.map SavedField.name).Nodup) {f : SavedField} (hf : f ∈ fields)
    (hsignature : margin 1 ++ (signature ++ " \x7b") ≠ margin 2 ++ text f)
    (hopening : text f ∉ opening.flatMap lines) (hclosing : text f ∉ closing.flatMap lines) :
  (methodLines signature (opening ++ fields.map stmt ++ closing)).count (margin 2 ++ text f) = 1
  := by
  -- Among the fields the line occurs once, since it tells the name; elsewhere it does not occur.
  have hlines : (fields.map stmt).flatMap lines = fields.map text := by
    have hline : ∀ f, (stmt f).lines = [text f] := by
      intro f
      rw [lines, hsteps]
      rfl
    rw [List.flatMap_map, funext hline, ← List.map_eq_flatMap]
  have hnodup : (fields.map text).Nodup := by
    apply (List.Nodup.of_map _ hnames).map_on
    intro f hf f' hf' htext
    apply List.inj_on_of_nodup_map hnames hf hf' (hname f f' htext)
  have hend : margin 1 ++ ['\x7d'] ≠ margin 2 ++ text f := by
    intro h
    cases h
  have hinj : Function.Injective (margin 2 ++ ·) := fun _ _ => List.append_cancel_left
  have hbody : (((opening ++ fields.map stmt ++ closing).flatMap lines).map (margin 2 ++ ·)).count
      (margin 2 ++ text f) = 1 := by
    rw [List.count_map_of_injective _ _ hinj, List.flatMap_append, List.flatMap_append, hlines,
      List.count_append, List.count_append, List.count_eq_zero_of_not_mem hopening,
      List.count_eq_zero_of_not_mem hclosing,
      List.count_eq_one_of_mem hnodup (List.mem_map_of_mem hf)]
  rw [methodLines, List.count_cons_of_ne hsignature, List.count_append, hbody,
    List.count_cons_of_ne hend, List.count_nil]

/-- A signature is told from the line of a field by where it begins. -/
theorem signature_ne (signature : Signature) (hsignature : signature.before.head? = some 'p')
    (owner text : Text) :
  margin 1 ++ (signature.fill owner ++ " \x7b") ≠ margin 2 ++ text
  := by
  intro h
  cases hbefore : signature.before with
  | nil =>
    rw [hbefore] at hsignature
    cases hsignature
  | cons d rest =>
    rw [hbefore, List.head?_cons, Option.some.injEq] at hsignature
    rw [Signature.fill, hbefore, hsignature] at h
    cases h

theorem keyExpression_append_ne (c : Companion) (name x y : Text) :
  c.keyExpression name ++ x ≠ Lifecycle.superKeyName ++ y
  := by
  intro h
  rw [keyExpression_eq, keyPrefix] at h
  split at h
  · cases h
  · cases h

theorem saveStatement_not_mem_saveOpening (c : Companion) (f : SavedField) (family : Family) :
  c.saveStatement f ∉ (saveOpening family).flatMap lines
  := by
  intro h
  rw [saveStatement_shape] at h
  cases family with
  | host => cases h
  | view =>
    rw [saveOpening, List.flatMap_cons, List.flatMap_cons, List.mem_append, List.mem_append] at h
    rcases h with h | h | h
    · cases List.mem_singleton.1 h
    · have hstate : (storeState (CommandKind.accessor .parcelable) Lifecycle.superKeyName).lines
          = ["outState.put" ++ (CommandKind.accessor .parcelable ++ '('
            :: (Lifecycle.superKeyName ++ ", state);"))] := by
        rfl
      rw [hstate, List.mem_singleton] at h
      obtain ⟨-, hkey⟩ := accessor_append_inj (List.append_cancel_left h)
      apply keyExpression_append_ne c _ _ _ hkey
    · cases h

theorem saveStatement_not_mem_saveClosing (c : Companion) (f : SavedField) (family : Family) :
  c.saveStatement f ∉ (saveClosing family).flatMap lines
  := by
  intro h
  rw [saveStatement_shape] at h
  cases family with
  | host => cases h
  | view => cases List.mem_singleton.1 h

theorem restoreStatement_not_mem (c : Companion) (f : SavedField) (family : Family) :
  c.restoreStatement f
    ∉ (restoreOpening family).flatMap lines ++ (restoreClosing family).flatMap lines
  := by
  have hhead : ∀ family, ∀ line ∈ (restoreOpening family).flatMap lines
      ++ (restoreClosing family).flatMap lines, line.head? ≠ some 't' := by
    intro family
    cases family <;> decide
  intro h
  apply hhead family _ h
  rfl

theorem count_saveLines (hnames : (c.fields.map SavedField.name).Nodup) {f : SavedField}
    (hf : f ∈ c.fields) :
  c.saveLines.count (margin 2 ++ c.saveStatement f) = 1
  := by
  apply count_methodLines c.saveStatement_eq (fun f f' => name_eq_of_saveStatement_eq) hnames hf
  · apply signature_ne
    rw [lifecycle]
    cases c.family <;> decide
  · apply saveStatement_not_mem_saveOpening
  · apply saveStatement_not_mem_saveClosing

theorem count_restoreLines (hnames : (c.fields.map SavedField.name).Nodup) {f : SavedField}
    (hf : f ∈ c.fields) :
  c.restoreLines.count (margin 2 ++ c.restoreStatement f) = 1
  := by
  have hothers := restoreStatement_not_mem c f c.family
  rw [List.mem_append, not_or] at hothers
  apply count_methodLines c.restoreStatement_eq (fun f f' => name_eq_of_restoreStatement_eq)
    hnames hf
  · apply signature_ne
    rw [lifecycle]
    cases c.family <;> decide
  · exact hothers.1
  · exact hothers.2

end Companion

end InstanceState
