import InstanceState.Proofs.Generation.Retention
import InstanceState.Proofs.Source.SuperState

/-!
# Keys with a common beginning

Keys that begin with the name of their companion tell the companion and the field.  The name of a
field has no dot, so the last dot of a key ends its common beginning; and the name of a companion
tells the name of its owner if that has no dollar sign, whatever package is declared for the owner.
So the keys of different owners differ, and as the encoding of literals loses nothing, the strings
that the key expressions denote differ too.
-/

namespace InstanceState

/-! ### Names without dollar signs -/

/-- A name without dollar signs is told by the name with dollar signs in place of the dots. -/
theorem TypeName.eq_of_flattened_eq {a b : TypeName} (ha : '$' ∉ a.text) (hb : '$' ∉ b.text)
    (h : a.flattened = b.flattened) :
  a = b
  := by
  have htext := congrArg (Text.substitute '$' '.') h
  rw [flattened, flattened, Text.substitute_undo ha, Text.substitute_undo hb] at htext
  apply text_injective htext

namespace Companion

/-! ### Keys of different companions -/

/-- A companion of an owner, for which any package may be declared, with keys that have a common
beginning. -/
structure IsNamespaced (c : Companion) (owner : TypeName) (suffix : Text) : Prop where
  exists_layout : ∃ declared, c.layout = owner.layout declared
  suffix_eq : c.suffix = suffix
  namespaceKeys : c.namespaceKeys = true

variable {c c' : Companion} {a b : TypeName} {suffix : Text}

/-- What comes before the last dot of a key is the name of the companion. -/
theorem cutLast?_key (h : c.namespaceKeys = true) {name : Text} (hname : '.' ∉ name) :
  Text.cutLast? '.' (c.key name) = some (c.artifact, name)
  := by
  apply Text.cutLast?_eq_some_iff.2
  constructor
  · rw [key, if_pos h]
    apply List.append_assoc
  · apply hname

theorem IsNamespaced.eq_of_artifact_eq (hc : c.IsNamespaced a suffix)
    (hc' : c'.IsNamespaced b suffix) (ha : '$' ∉ a.text) (hb : '$' ∉ b.text)
    (h : c.artifact = c'.artifact) :
  a = b
  := by
  obtain ⟨declared, hlayout⟩ := hc.exists_layout
  obtain ⟨declared', hlayout'⟩ := hc'.exists_layout
  rw [artifact, artifact, hc.suffix_eq, hc'.suffix_eq, Layout.artifactName_eq_iff, hlayout,
    hlayout'] at h
  apply TypeName.eq_of_flattened_eq ha hb (TypeName.flattened_eq_of_coincides h)

/-- No key of one owner is a key of another. -/
theorem IsNamespaced.key_ne_key (hc : c.IsNamespaced a suffix) (hc' : c'.IsNamespaced b suffix)
    (ha : '$' ∉ a.text) (hb : '$' ∉ b.text) (hab : a ≠ b) {name name' : Text} (hname : '.' ∉ name)
    (hname' : '.' ∉ name') :
  c.key name ≠ c'.key name'
  := by
  intro h
  have hcut := congrArg (Text.cutLast? '.') h
  rw [cutLast?_key hc.namespaceKeys hname, cutLast?_key hc'.namespaceKeys hname'] at hcut
  obtain ⟨hartifact, -⟩ := Prod.mk.inj (Option.some.inj hcut)
  apply hab (hc.eq_of_artifact_eq hc' ha hb hartifact)

/-! ### Denoted strings -/

theorem exists_units_ne {name name' : Text} (h : c.key name ≠ c'.key name') :
  ∃ units units', expressionValue? c.constants (c.keyExpression name) = some units
    ∧ expressionValue? c'.constants (c'.keyExpression name') = some units' ∧ units ≠ units'
  := ⟨_, _, c.expressionValue?_keyExpression name, c'.expressionValue?_keyExpression name',
    Utf16.encode_injective.ne h⟩

/-- With a common beginning of the keys, and the same suffix for all companions, the key expressions
of fields of different owners denote different strings, if the names of the owners have no dollar
sign and those of the fields no dot.  So do the key expressions of different fields of one owner,
and none denotes the string of the constant of the parent's state. -/
theorem namespaced_keys_differ (hc : c.IsNamespaced a suffix) :
  (∀ {b : TypeName} {c' : Companion}, c'.IsNamespaced b suffix → a ≠ b → '$' ∉ a.text →
      '$' ∉ b.text → ∀ name name' : Text, '.' ∉ name → '.' ∉ name' →
      ∃ units units', expressionValue? c.constants (c.keyExpression name) = some units
        ∧ expressionValue? c'.constants (c'.keyExpression name') = some units' ∧ units ≠ units')
    ∧ (∀ name name' : Text, name ≠ name' →
      ∃ units units', expressionValue? c.constants (c.keyExpression name) = some units
        ∧ expressionValue? c.constants (c.keyExpression name') = some units' ∧ units ≠ units')
    ∧ (c.family = .view → ∀ name,
      ∃ units reserved, expressionValue? c.constants (c.keyExpression name) = some units
        ∧ expressionValue? c.constants Lifecycle.superKeyName = some reserved ∧ units ≠ reserved)
  := by
  refine ⟨?_, ?_, ?_⟩
  · intro b c' hc' hab ha hb name name' hname hname'
    apply exists_units_ne
    apply hc.key_ne_key hc' ha hb hab hname hname'
  · intro name name' hne
    apply exists_units_ne
    apply c.key_injective.ne hne
  · intro hfamily name
    refine ⟨_, _, c.expressionValue?_keyExpression name, expressionValue?_superKeyName hfamily, ?_⟩
    apply Utf16.encode_injective.ne
    apply key_ne_superKey_of_namespaceKeys hc.namespaceKeys

/-- A view, whose keys have a common beginning. -/
def outerView : Companion where
  layout := TypeName.layout ⟨"a.Outer"⟩ none
  suffix := "$$Icicle"
  namespaceKeys := true
  family := .view
  fields := []

/-- A class that is nested in the view. -/
def innerHost : Companion where
  layout := TypeName.layout ⟨"a.Outer.Inner"⟩ (some "a")
  suffix := "$$Icicle"
  namespaceKeys := true
  family := .host
  fields := []

/-- A field of the view, one of the same name of the nested class, another field of the view and the
state of its parent class have different keys. -/
theorem outerView_keys_differ :
  outerView.IsNamespaced ⟨"a.Outer"⟩ "$$Icicle" ∧ innerHost.IsNamespaced ⟨"a.Outer.Inner"⟩ "$$Icicle"
    ∧ (∃ units units',
      expressionValue? outerView.constants (outerView.keyExpression "x") = some units
        ∧ expressionValue? innerHost.constants (innerHost.keyExpression "x") = some units'
        ∧ units ≠ units')
    ∧ (∃ units units',
      expressionValue? outerView.constants (outerView.keyExpression "x") = some units
        ∧ expressionValue? outerView.constants (outerView.keyExpression "y") = some units'
        ∧ units ≠ units')
    ∧ ∃ units reserved,
      expressionValue? outerView.constants (outerView.keyExpression "x") = some units
        ∧ expressionValue? outerView.constants Lifecycle.superKeyName = some reserved
        ∧ units ≠ reserved
  := by
  have houter : outerView.IsNamespaced ⟨"a.Outer"⟩ "$$Icicle" := ⟨⟨none, rfl⟩, rfl, rfl⟩
  have hinner : innerHost.IsNamespaced ⟨"a.Outer.Inner"⟩ "$$Icicle" := ⟨⟨some "a", rfl⟩, rfl, rfl⟩
  obtain ⟨hothers, hfields, hsuper⟩ := namespaced_keys_differ houter
  refine ⟨houter, hinner, ?_, ?_, hsuper rfl "x"⟩
  · apply hothers hinner
    · decide
    · decide
    · decide
    · decide
    · decide
  · apply hfields
    decide

end Companion

end InstanceState
