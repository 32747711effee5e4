import InstanceState.Proofs.Source.Literals
import InstanceState.Source.Companion

/-!
# Keys

The strings that the key expressions of a companion denote.  An expression is a literal, the name
of a declared constant, or such a name and a literal after it; a declaration gives its constant the
string of a literal.  The key of a field is its name, after the common beginning of the keys where
they have one.
-/

namespace InstanceState

/-! ### Constant expressions -/

/-- The value of a constant, if a line declares it. -/
def constantValue? (name line : Text) : Option Units :=
  (Text.after? ("private static final String " ++ name ++ " = ") line).bind fun rest =>
    (Text.before? ";" rest).bind Literal.value?

/-- The value of a constant that is declared by one of the lines. -/
def declaredValue? (lines : List Text) (name : Text) : Option Units :=
  lines.findSome? (constantValue? name)

/-- The string that an expression denotes, where the lines declare the constants. -/
def expressionValue? (lines : List Text) (expression : Text) : Option Units :=
  if expression.head? = some '"' then Literal.value? expression
  else
    match Text.cutFirst? ' ' expression with
    | none => declaredValue? lines expression
    | some (name, rest) =>
      (declaredValue? lines name).bind fun first =>
        (Text.after? "+ " rest).bind fun literal => (Literal.value? literal).map (first ++ ·)

/-- A declaration gives a constant the string of its literal. -/
theorem constantValue?_constant (name value : Text) :
  constantValue? name (Companion.constant name value) = some (Utf16.encode value)
  := by
  have hafter : Text.after? ("private static final String " ++ name ++ " = ")
      (Companion.constant name value) = some (Literal.quote value ++ ";") := by
    apply Text.after?_eq_some_iff.2
    apply List.append_assoc
  have hbefore : Text.before? ";" (Literal.quote value ++ ";") = some (Literal.quote value) :=
    Text.before?_eq_some_iff.2 rfl
  rw [constantValue?, hafter, Option.bind_some, hbefore, Option.bind_some, Literal.value?_quote]

namespace Companion

/-- The key of a field. -/
def key (c : Companion) (name : Text) : Text :=
  if c.namespaceKeys then c.baseKey ++ name else name

theorem key_injective (c : Companion) :
  Function.Injective c.key
  := by
  intro name name' h
  rw [key, key] at h
  split at h
  · apply List.append_cancel_left h
  · exact h

/-! ### The constants of a companion -/

theorem declaredValue?_baseKeyName {c : Companion} (h : c.namespaceKeys = true) :
  declaredValue? c.constants Lifecycle.baseKeyName = some (Utf16.encode c.baseKey)
  := by
  rw [declaredValue?, constants, if_pos h, List.cons_append, List.findSome?_cons,
    constantValue?_constant]

theorem constantValue?_baseKey (value : Text) :
  constantValue? Lifecycle.superKeyName (constant Lifecycle.baseKeyName value) = none
  := by
  have hafter : Text.after? ("private static final String " ++ Lifecycle.superKeyName ++ " = ")
      (constant Lifecycle.baseKeyName value) = none := by
    rfl
  rw [constantValue?, hafter, Option.bind_none]

theorem declaredValue?_superKeyName {c : Companion} (h : c.family = .view) :
  declaredValue? c.constants Lifecycle.superKeyName = some (Utf16.encode c.superKey)
  := by
  have hneeded : c.lifecycle.needsSuperKey = true := by
    rw [lifecycle, h]
    rfl
  have hsuper : [constant Lifecycle.superKeyName c.superKey].findSome?
      (constantValue? Lifecycle.superKeyName) = some (Utf16.encode c.superKey) := by
    rw [List.findSome?_cons, constantValue?_constant]
  rw [declaredValue?, constants, if_pos hneeded]
  split
  · rw [List.cons_append, List.findSome?_cons, constantValue?_baseKey]
    exact hsuper
  · exact hsuper

/-- The key expression of a field denotes its key. -/
theorem expressionValue?_keyExpression (c : Companion) (name : Text) :
  expressionValue? c.constants (c.keyExpression name) = some (Utf16.encode (c.key name))
  := by
  rw [keyExpression, key]
  split
  · rename_i h
    have hhead : (Lifecycle.baseKeyName ++ " + " ++ Literal.quote name).head? ≠ some '"' := by
      intro hquote
      cases hquote
    have hcut : Text.cutFirst? ' ' (Lifecycle.baseKeyName ++ " + " ++ Literal.quote name)
        = some (Lifecycle.baseKeyName, "+ " ++ Literal.quote name) := by
      apply Text.cutFirst?_eq_some_iff.2
      constructor
      · apply List.append_assoc
      · decide
    have hafter : Text.after? "+ " ("+ " ++ Literal.quote name) = some (Literal.quote name) :=
      Text.after?_eq_some_iff.2 rfl
    rw [expressionValue?, if_neg hhead, hcut]
    simp only
    rw [declaredValue?_baseKeyName h, Option.bind_some, hafter, Option.bind_some,
      Literal.value?_quote, Option.map_some, Utf16.encode_append]
  · rw [expressionValue?, Literal.quote, List.head?_cons, if_pos rfl, ← Literal.quote,
      Literal.value?_quote]

/-- The constant of the parent's state denotes its key. -/
theorem expressionValue?_superKeyName {c : Companion} (h : c.family = .view) :
  expressionValue? c.constants Lifecycle.superKeyName = some (Utf16.encode c.superKey)
  := by
  have hhead : Lifecycle.superKeyName.head? ≠ some '"' := by
    decide
  have hcut : Text.cutFirst? ' ' Lifecycle.superKeyName = none := by
    decide
  rw [expressionValue?, if_neg hhead, hcut]
  apply declaredValue?_superKeyName h

end Companion

end InstanceState
