import InstanceState.Proofs.Generation.Retention
import InstanceState.Proofs.Model.Names
import InstanceState.Proofs.Text.Trim

/-!
# Names with blank characters at the ends

A type name that is made from a text has no blank characters at its ends.  One that is read from a
model document is the text that the document writes, so it may have some; and owners whose names
differ in nothing else are different owners, with groups and artifacts of their own.
-/

namespace InstanceState

namespace Text

/-! ### Substitution between blank characters -/

section Substitution

variable {old new : Char} (hold : isBlank old = false) (hnew : isBlank new = false)

include hold in
theorem substitute_of_allBlank {w : Text} (h : AllBlank w) :
  substitute old new w = w
  := by
  apply substitute_of_not_mem
  intro hmem
  rw [h old hmem] at hold
  contradiction

include hold hnew in
theorem trimStart_substitute (t : Text) :
  trimStart (substitute old new t) = substitute old new (trimStart t)
  := by
  have hblank : (isBlank ∘ fun c => if c = old then new else c) = isBlank := by
    funext c
    rw [Function.comp_apply]
    split
    · rename_i hc
      rw [hc, hold, hnew]
    · rfl
  rw [trimStart, substitute, List.dropWhile_map, hblank]
  rfl

include hold in
theorem eq_of_trimStart_eq {s t : Text} (h : substitute old new s = substitute old new t)
    (htrim : trimStart s = trimStart t) :
  s = t
  := by
  obtain ⟨w, hw, hs⟩ := exists_eq_append_trimStart s
  obtain ⟨w', hw', ht⟩ := exists_eq_append_trimStart t
  rw [hs, ht, htrim, substitute_append, substitute_append, substitute_of_allBlank hold hw,
    substitute_of_allBlank hold hw'] at h
  rw [hs, ht, htrim, List.append_cancel_right h]

include hold in
theorem eq_of_trimEnd_eq {s t : Text} (h : substitute old new s = substitute old new t)
    (htrim : trimEnd s = trimEnd t) :
  s = t
  := by
  obtain ⟨w, hw, hs⟩ := exists_eq_trimEnd_append s
  obtain ⟨w', hw', ht⟩ := exists_eq_trimEnd_append t
  rw [hs, ht, htrim, substitute_append, substitute_append, substitute_of_allBlank hold hw,
    substitute_of_allBlank hold hw'] at h
  rw [hs, ht, htrim, List.append_cancel_left h]

include hold hnew in
/-- Texts that differ in blank characters at the ends still do after a substitution of other
characters. -/
theorem eq_of_trim_eq {s t : Text} (h : substitute old new s = substitute old new t)
    (htrim : trim s = trim t) :
  s = t
  := by
  have hstart : substitute old new (trimStart s) = substitute old new (trimStart t) := by
    rw [← trimStart_substitute hold hnew, h, trimStart_substitute hold hnew]
  apply eq_of_trimStart_eq hold h
  apply eq_of_trimEnd_eq hold hstart htrim

end Substitution

end Text

namespace TypeName

/-- Whether a name is the one that is made from its own text. -/
def IsNormal (n : TypeName) : Prop := n = .ofText n.text

instance (n : TypeName) : Decidable n.IsNormal := inferInstanceAs (Decidable (_ = _))

theorem isNormal_iff {n : TypeName} :
  n.IsNormal ↔ Text.trim n.text = n.text
  := by
  cases n
  rw [IsNormal, ofText, mk.injEq, eq_comm]

theorem isNormal_ofText (t : Text) :
  (ofText t).IsNormal
  := isNormal_iff.2 (Text.trim_trim t)

theorem IsNormal.eq_of_trim_eq {a b : TypeName} (ha : a.IsNormal) (hb : b.IsNormal)
    (h : Text.trim a.text = Text.trim b.text) :
  a = b
  := by
  rw [ha, hb, ofText, ofText, h]

end TypeName

namespace Generator

variable (g : Generator)

/-- The artifacts of names that differ in blank characters at the ends differ, whatever is declared
for them. -/
theorem artifactOf_eq_iff_of_trim_eq (fields : List Field) {a b : TypeName}
    (h : Text.trim a.text = Text.trim b.text) :
  g.artifactOf fields a = g.artifactOf fields b ↔ a = b
  := by
  constructor
  · intro hartifact
    have hflattened := TypeName.flattened_eq_of_coincides (g.artifactOf_eq_iff.1 hartifact)
    apply TypeName.text_injective
    apply Text.eq_of_trim_eq (by decide) (by decide) hflattened h
  · rintro rfl
    rfl

/-- Two fields of a batch have one group exactly if they have one owner. -/
theorem exists_groups_eq_iff {fields : List Field} {f f' : Field} (hf : f ∈ fields)
    (hf' : f' ∈ fields) :
  ∃ group group', (g.collect fields).groups.find? f.owner.text = some group
    ∧ (g.collect fields).groups.find? f'.owner.text = some group'
    ∧ (group = group' ↔ f.owner = f'.owner)
  := by
  use g.groupOf fields f.owner, g.groupOf fields f'.owner
  rw [find?_collect, if_pos ⟨f, hf, rfl⟩, find?_collect, if_pos ⟨f', hf', rfl⟩]
  refine ⟨rfl, rfl, ?_⟩
  constructor
  · intro h
    apply congrArg Group.owner h
  · intro h
    rw [h]

end Generator

namespace Model

/-- The type names of a model that is read are the texts of its document, so they are in normal form
exactly if these have no blank characters at their ends.  Fields of owners that differ at most in
such characters have one group and one artifact exactly if they have one owner, as they do if their
owners' names are in normal form, like every name that is made from a text. -/
theorem typeNames_normal_iff {document : Text} {m : Model} (h : Model.parse document = some m) :
  (∃ v, Json.parse document = some v ∧ m.typeNames.map TypeName.text = writtenNames v
      ∧ ((∀ n ∈ m.typeNames, n.IsNormal) ↔ ∀ t ∈ writtenNames v, Text.trim t = t))
    ∧ (∀ f ∈ m.fields, ∀ f' ∈ m.fields, Text.trim f.owner.text = Text.trim f'.owner.text →
      (f.owner.IsNormal → f'.owner.IsNormal → f.owner = f'.owner)
        ∧ ∀ g : Generator,
          (∃ group group', (g.collect m.fields).groups.find? f.owner.text = some group
            ∧ (g.collect m.fields).groups.find? f'.owner.text = some group'
            ∧ (group = group' ↔ f.owner = f'.owner))
          ∧ (g.artifactOf m.fields f.owner = g.artifactOf m.fields f'.owner ↔ f.owner = f'.owner))
    ∧ ∀ t : Text, (TypeName.ofText t).IsNormal
  := by
  refine ⟨?_, ?_, TypeName.isNormal_ofText⟩
  · obtain ⟨v, hv, hm⟩ := Option.bind_eq_some_iff.1 h
    have hnames := writtenNames_of_ofValue? hm
    use v, hv, hnames.symm
    rw [hnames, List.forall_mem_map]
    simp only [TypeName.isNormal_iff]
  · intro f hf f' hf' htrim
    constructor
    · intro hnormal hnormal'
      apply hnormal.eq_of_trim_eq hnormal' htrim
    · intro g
      constructor
      · apply g.exists_groups_eq_iff hf hf'
      · apply g.artifactOf_eq_iff_of_trim_eq m.fields htrim

/-- Two fields of one owner, whose name is once written with blank characters around it. -/
def padded : Model where
  fields :=
    [{ name := "x", declaredType := "int", owner := ⟨"a.Foo"⟩ },
     { name := "y", declaredType := "int", owner := ⟨" a.Foo "⟩ }]

/-- The document of the two fields. -/
def paddedDocument : Text := "[[],[[\"x\",\"int\",\"a.Foo\"],[\"y\",\"int\",\" a.Foo \"]]]"

/-- The two fields have different owners, and so different groups and artifacts. -/
theorem padded_owners_differ :
  Model.parse paddedDocument = some padded
    ∧ ¬ (∀ n ∈ padded.typeNames, n.IsNormal)
    ∧ Text.trim ("a.Foo" : Text) = Text.trim (" a.Foo " : Text)
    ∧ ∀ g : Generator,
      (∃ group group', (g.collect padded.fields).groups.find? "a.Foo" = some group
        ∧ (g.collect padded.fields).groups.find? " a.Foo " = some group' ∧ group ≠ group')
      ∧ g.artifactOf padded.fields ⟨"a.Foo"⟩ ≠ g.artifactOf padded.fields ⟨" a.Foo "⟩
  := by
  have hparse : Model.parse paddedDocument = some padded := by
    decide +kernel
  have htrim : Text.trim ("a.Foo" : Text) = Text.trim (" a.Foo " : Text) := by
    decide
  have hne : (⟨"a.Foo"⟩ : TypeName) ≠ ⟨" a.Foo "⟩ := by
    decide
  obtain ⟨-, hfields, -⟩ := typeNames_normal_iff hparse
  refine ⟨hparse, by decide, htrim, ?_⟩
  intro g
  obtain ⟨-, hdiffer⟩ := hfields _ List.mem_cons_self _
    (List.mem_cons_of_mem _ List.mem_cons_self) htrim
  obtain ⟨⟨group, group', hgroup, hgroup', hiff⟩, hartifact⟩ := hdiffer g
  constructor
  · exact ⟨group, group', hgroup, hgroup', mt hiff.1 hne⟩
  · exact mt hartifact.1 hne

end Model

end InstanceState
