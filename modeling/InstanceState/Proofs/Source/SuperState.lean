import InstanceState.Proofs.Source.Agreement

/-!
# The key of the parent's state

A view keeps the state of its parent class under a key of its own, among the keys of its fields.
That key is the name of the companion and an ending that is not set off by a dot.  So the name of a
field can be the same text, though only in the default package and only if the keys have no common
beginning; such a field takes the place of the state.
-/

namespace InstanceState.Companion

/-- A field takes the key of the parent's state: its name, which is its whole key, is the name of a
companion in the default package followed by the ending of that key. -/
def TakesSuperKey (c : Companion) (f : SavedField) : Prop :=
  c.namespaceKeys = false ∧ c.layout.package = none
    ∧ f.name = c.layout.companionName c.suffix ++ "$$SUPER"

variable {c : Companion} {f : SavedField}

/-- A common beginning ends in a dot, where the key of the parent's state goes on with a dollar
sign. -/
theorem key_ne_superKey_of_namespaceKeys (h : c.namespaceKeys = true) (name : Text) :
  c.key name ≠ c.superKey
  := by
  intro hkey
  rw [key, if_pos h, baseKey, superKey, List.append_assoc] at hkey
  cases List.append_cancel_left hkey

theorem dot_mem_superKey {package : Text} (h : c.layout.package = some package) :
  '.' ∈ c.superKey
  := by
  have hartifact : '.' ∈ c.artifact := by
    rw [artifact, Layout.artifactName, h]
    apply List.mem_append_left
    apply List.mem_append_right
    decide
  apply List.mem_append_left _ hartifact

/-- In the default package the key of the parent's state begins with the simple name of the
companion. -/
theorem superKey_of_package_eq_none (h : c.layout.package = none) :
  c.superKey = c.layout.companionName c.suffix ++ "$$SUPER"
  := by
  rw [superKey, artifact, Layout.artifactName, h]

/-- The key of a field whose name has no dot is the key of the parent's state exactly if the field
takes it. -/
theorem key_eq_superKey_iff (hdot : '.' ∉ f.name) :
  c.key f.name = c.superKey ↔ c.TakesSuperKey f
  := by
  constructor
  · intro h
    have hkeys : c.namespaceKeys = false := by
      apply Bool.eq_false_iff.2
      intro hkeys
      apply key_ne_superKey_of_namespaceKeys hkeys _ h
    have hname : f.name = c.superKey := by
      rw [← h, key, hkeys]
      rfl
    -- In a package the key of the parent's state has a dot, and the name has none.
    have hpackage : c.layout.package = none := by
      apply Option.eq_none_iff_forall_not_mem.2
      intro package hpackage
      rw [hname] at hdot
      apply hdot (dot_mem_superKey hpackage)
    rw [superKey_of_package_eq_none hpackage] at hname
    exact ⟨hkeys, hpackage, hname⟩
  · rintro ⟨hkeys, hpackage, hname⟩
    rw [key, hkeys, hname, superKey_of_package_eq_none hpackage]
    rfl

/-- In the companion of a view, no name of whose fields has a dot, the constant of the parent's
state denotes the string of the key of a field exactly if the field takes that key.  If no field
takes it, restoring what was saved returns the state that was given; if a field takes it that is
stored as a parcelable, the value of the field is returned in place of the state. -/
theorem state_returned_unless_taken (c : Companion) (hfamily : c.family = .view)
    (hnames : (c.fields.map SavedField.name).Nodup) (hdots : ∀ f ∈ c.fields, '.' ∉ f.name) :
  (∃ reserved, expressionValue? c.constants Lifecycle.superKeyName = some reserved
      ∧ ∀ f ∈ c.fields, ∃ units, expressionValue? c.constants (c.keyExpression f.name) = some units
        ∧ (units = reserved ↔ c.TakesSuperKey f))
    ∧ ∀ (β ν : Type) (bundles : Bundles β ν) (target fresh : Text → ν) (state : ν),
        ∃ restored value, (c.save bundles target state).bind (c.restore bundles fresh)
            = some (restored, some value)
          ∧ ((∀ f ∈ c.fields, ¬ c.TakesSuperKey f) → value = state)
          ∧ ∀ f ∈ c.fields, c.TakesSuperKey f →
              f.command.kind.accessor = CommandKind.accessor .parcelable → value = target f.name
  := by
  constructor
  · refine ⟨_, expressionValue?_superKeyName hfamily, ?_⟩
    intro f hf
    refine ⟨_, c.expressionValue?_keyExpression f.name, ?_⟩
    rw [Utf16.encode_injective.eq_iff, key_eq_superKey_iff (hdots f hf)]
  · intro β ν bundles target fresh state
    obtain ⟨b, hopened⟩ : ∃ b, c.opened? bundles state = some b := by
      rw [opened?, hfamily]
      exact ⟨_, rfl⟩
    have hvalue : c.returned? bundles (c.stored bundles target c.fields b) = some (bundles.get
        (CommandKind.accessor .parcelable) c.superUnits (c.stored bundles target c.fields b)) := by
      rw [returned?, hfamily]
    refine ⟨_, _, (restore_save hnames hopened target fresh).trans (by rw [hvalue]), ?_, ?_⟩
    · intro hfree
      have hkeys : ∀ f ∈ c.fields, c.key f.name ≠ c.superKey := by
        intro f hf h
        apply hfree f hf ((key_eq_superKey_iff (hdots f hf)).1 h)
      rw [← Option.some.injEq, ← hvalue, returned?_stored_of_ne hfamily hkeys hopened]
    · intro f hf htakes haccessor
      have hkey := (key_eq_superKey_iff (hdots f hf)).2 htakes
      rw [← Option.some.injEq, ← hvalue, returned?_stored_of_eq hfamily hnames hf haccessor hkey]

/-- The field of a view in the default package that takes the key of the parent's state. -/
def takingField : SavedField where
  field := ⟨"Foo$$Icicle$$SUPER", "android.graphics.Rect", ⟨"Foo"⟩, some "", {}⟩
  command := .typed .rect "android.graphics.Rect"

/-- A view in the default package with such a field. -/
def fooView : Companion where
  layout := TypeName.layout ⟨"Foo"⟩ (some "")
  suffix := "$$Icicle"
  namespaceKeys := false
  family := .view
  fields := [takingField]

theorem fooView_returns_field :
  fooView.family = .view ∧ (fooView.fields.map SavedField.name).Nodup
    ∧ (∀ f ∈ fooView.fields, '.' ∉ f.name) ∧ fooView.TakesSuperKey takingField
    ∧ ((fooView.save parcels (fun _ => .number 7) .null).bind
        (fooView.restore parcels fun _ => .null)).map Prod.snd = some (some (.number 7))
  := by
  have hnames : (fooView.fields.map SavedField.name).Nodup := by
    decide
  have hdots : ∀ f ∈ fooView.fields, '.' ∉ f.name := by
    decide
  have htakes : fooView.TakesSuperKey takingField := ⟨rfl, rfl, rfl⟩
  obtain ⟨-, hrun⟩ := fooView.state_returned_unless_taken rfl hnames hdots
  obtain ⟨restored, value, hrestored, -, hfield⟩ :=
    hrun _ _ parcels (fun _ => .number 7) (fun _ => .null) .null
  have hvalue := hfield takingField List.mem_cons_self htakes rfl
  rw [hvalue] at hrestored
  exact ⟨rfl, hnames, hdots, htakes, by rw [hrestored]; rfl⟩

end InstanceState.Companion
