import InstanceState.Proofs.Generation.Outcome
import InstanceState.Proofs.Layout

/-!
# Retention of companions

The artifacts of two owners have one name exactly if the layouts of the owners coincide, and then
the names of the owners differ at most in dots against dollar signs.  Of the owners whose layouts
coincide only the last keeps its companion; every other owner keeps its own.  A nested class and a
class of its parent's package that is written with a dollar sign have layouts that coincide.
-/

namespace InstanceState

open Batch

namespace Generator

variable (g : Generator)

/-- The layout of an owner, by the package that the batch declares for it. -/
def layoutOf (fields : List Field) (owner : TypeName) : Layout :=
  owner.layout (package fields owner)

theorem artifactOf_eq_iff {fields : List Field} {a b : TypeName} :
  g.artifactOf fields a = g.artifactOf fields b
    ↔ (layoutOf fields a).Coincides (layoutOf fields b)
  := Layout.artifactName_eq_iff

/-- No name is written twice exactly if no layouts of two published owners coincide. -/
theorem written_nodup_iff (fields : List Field) (shelf : Shelf) :
  ((g.generate Shelf.reliable fields).run shelf).1.written.Nodup
    ↔ ∀ a ∈ published fields, ∀ b ∈ published fields,
      (layoutOf fields a).Coincides (layoutOf fields b) → a = b
  := by
  rw [run_generate_reliable]
  constructor
  · intro h a ha b hb hlayout
    apply List.inj_on_of_nodup_map h ha hb (g.artifactOf_eq_iff.2 hlayout)
  · intro h
    apply (published_nodup fields).map_on
    intro a ha b hb hartifact
    apply h a ha b hb (g.artifactOf_eq_iff.1 hartifact)

/-- An owner keeps its companion if its layout coincides with that of no later owner. -/
theorem find?_artifactOf {fields : List Field} {a : TypeName} (ha : a ∈ published fields)
    (h : ∀ b ∈ published fields, Utf8.encode a.text < Utf8.encode b.text →
      ¬ (layoutOf fields a).Coincides (layoutOf fields b))
    (shelf : Shelf) :
  ((g.generate Shelf.reliable fields).run shelf).2.find? (g.artifactOf fields a)
    = some (g.companionOf fields a).source
  := by
  obtain ⟨before, after, hsplit⟩ := List.append_of_mem ha
  have hpairwise := published_pairwise fields
  rw [run_generate_reliable, shelfOf]
  rw [hsplit] at h hpairwise ⊢
  apply Roster.find?_foldl_insert (g.artifactOf fields)
    (fun owner => (g.companionOf fields owner).source)
  intro b hb hartifact
  obtain ⟨-, hrest, -⟩ := List.pairwise_append.1 hpairwise
  apply h b
  · simp [hb]
  · apply (List.pairwise_cons.1 hrest).1 b hb
  · apply g.artifactOf_eq_iff.1 hartifact

/-- The artifacts of two published owners have one name exactly if the layouts of the owners
coincide.  So no name is written twice if no layouts coincide, and an owner keeps its companion if
its layout coincides with that of no later owner. -/
theorem companions_retained (fields : List Field) (shelf : Shelf) :
  (∀ a ∈ published fields, ∀ b ∈ published fields,
      (g.artifactOf fields a = g.artifactOf fields b
        ↔ (layoutOf fields a).Coincides (layoutOf fields b))
      ∧ (a.flattened ≠ b.flattened → g.artifactOf fields a ≠ g.artifactOf fields b))
    ∧ (((g.generate Shelf.reliable fields).run shelf).1.written.Nodup
      ↔ ∀ a ∈ published fields, ∀ b ∈ published fields,
        (layoutOf fields a).Coincides (layoutOf fields b) → a = b)
    ∧ ∀ a ∈ published fields,
      (∀ b ∈ published fields, Utf8.encode a.text < Utf8.encode b.text →
        ¬ (layoutOf fields a).Coincides (layoutOf fields b)) →
      ((g.generate Shelf.reliable fields).run shelf).2.find? (g.artifactOf fields a)
        = some (g.companionOf fields a).source
  := by
  constructor
  · intro a _ b _
    constructor
    · apply g.artifactOf_eq_iff
    · intro hne hartifact
      apply hne (TypeName.flattened_eq_of_coincides (g.artifactOf_eq_iff.1 hartifact))
  · constructor
    · apply g.written_nodup_iff
    · intro a ha h
      apply g.find?_artifactOf ha h

/-- A nested class and its outer class. -/
def nesting : List Field :=
  [{ name := "x", declaredType := "int", owner := ⟨"a.Outer.Inner"⟩, package := some "a" },
   { name := "y", declaredType := "int", owner := ⟨"a.Outer"⟩ }]

/-- A nested class and its outer class both keep their companions. -/
theorem nesting_retained :
  ⟨"a.Outer"⟩ ∈ published nesting ∧ ⟨"a.Outer.Inner"⟩ ∈ published nesting
    ∧ ((generate ⟨{}, .stock⟩ Shelf.reliable nesting).run .empty).1.written.Nodup
    ∧ ∀ a ∈ published nesting,
      ((generate ⟨{}, .stock⟩ Shelf.reliable nesting).run .empty).2.find?
          (artifactOf ⟨{}, .stock⟩ nesting a)
        = some (companionOf ⟨{}, .stock⟩ nesting a).source
  := by
  have houter : ⟨"a.Outer"⟩ ∈ published nesting := by
    rw [mem_published_iff]
    decide
  have hinner : ⟨"a.Outer.Inner"⟩ ∈ published nesting := by
    rw [mem_published_iff]
    decide
  have hfields : ∀ f ∈ nesting, ∀ f' ∈ nesting,
      (layoutOf nesting f.owner).Coincides (layoutOf nesting f'.owner) → f.owner = f'.owner := by
    decide
  have happart : ∀ a ∈ published nesting, ∀ b ∈ published nesting,
      (layoutOf nesting a).Coincides (layoutOf nesting b) → a = b := by
    intro a ha b hb
    obtain ⟨f, hf, rfl, -⟩ := mem_published_iff.1 ha
    obtain ⟨f', hf', rfl, -⟩ := mem_published_iff.1 hb
    apply hfields f hf f' hf'
  obtain ⟨-, hnodup, hkept⟩ := companions_retained ⟨{}, .stock⟩ nesting .empty
  use houter, hinner, hnodup.2 happart
  intro a ha
  apply hkept a ha
  intro b hb hlt hlayout
  rw [happart a ha b hb hlayout] at hlt
  apply List.lt_irrefl _ hlt

/-- A class of a name with a dollar sign, and a nested class. -/
def doubles : List Field :=
  [{ name := "x", declaredType := "int", owner := ⟨"a.B$C"⟩ },
   { name := "y", declaredType := "int", owner := ⟨"a.B.C"⟩, package := some "a" }]

/-- Two owners of one batch can have artifacts of one name, which is then written twice. -/
theorem doubles_share_artifact :
  ({} : GeneratorSettings).fault? = none
    ∧ ⟨"a.B$C"⟩ ∈ published doubles ∧ ⟨"a.B.C"⟩ ∈ published doubles
    ∧ (⟨"a.B$C"⟩ : TypeName) ≠ ⟨"a.B.C"⟩
    ∧ artifactOf ⟨{}, .stock⟩ doubles ⟨"a.B$C"⟩ = artifactOf ⟨{}, .stock⟩ doubles ⟨"a.B.C"⟩
    ∧ ¬ ((generate ⟨{}, .stock⟩ Shelf.reliable doubles).run .empty).1.written.Nodup
  := by
  have hfirst : ⟨"a.B$C"⟩ ∈ published doubles := by
    rw [mem_published_iff]
    decide
  have hsecond : ⟨"a.B.C"⟩ ∈ published doubles := by
    rw [mem_published_iff]
    decide
  have hne : (⟨"a.B$C"⟩ : TypeName) ≠ ⟨"a.B.C"⟩ := by
    decide
  have hartifact : artifactOf ⟨{}, .stock⟩ doubles ⟨"a.B$C"⟩
      = artifactOf ⟨{}, .stock⟩ doubles ⟨"a.B.C"⟩ := by
    decide
  use by decide, hfirst, hsecond, hne, hartifact
  rw [run_generate_reliable]
  intro h
  apply hne
  apply List.inj_on_of_nodup_map h hfirst hsecond hartifact

end Generator

end InstanceState
