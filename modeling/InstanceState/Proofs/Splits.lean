import InstanceState.Proofs.Layout
import Mathlib.Data.List.Basic

/-!
# Splits of names

A layout splits a name after the package that is declared for it, if the name lies in that package,
and at its last dot otherwise.  `Layout.IsSplitOf` says this without the function that finds the
split, and leaves one layout for each name and each declared package.  The name of an artifact gives
a name without dollar signs back.
-/

namespace InstanceState

namespace TypeName

/-- Whether a name is that of a package, a dot and something more. -/
def LiesIn (name : TypeName) (package : Text) : Prop :=
  ∃ path : Text, path ≠ [] ∧ name.text = package ++ "." ++ path

theorem liesIn_iff {name : TypeName} {package : Text} :
  (Text.after? (package ++ ".") name.text).any (fun path => !path.isEmpty) = true
    ↔ name.LiesIn package
  := by
  rw [Option.any_eq_true]
  constructor
  · rintro ⟨path, hpath, hne⟩
    use path
    constructor
    · rintro rfl
      contradiction
    · apply Text.after?_eq_some_iff.1 hpath
  · rintro ⟨path, hne, hname⟩
    use path, Text.after?_eq_some_iff.2 hname
    rw [List.isEmpty_eq_false_iff.2 hne, Bool.not_false]

instance (name : TypeName) (package : Text) : Decidable (name.LiesIn package) :=
  decidable_of_iff _ liesIn_iff

/-- Whether no package is declared for a name that could be used: a declared one is not the default
package, and the name does not lie in it. -/
def Ignores (name : TypeName) (declared : Option Text) : Prop :=
  ∀ package, declared.map Text.trim = some package → package ≠ [] ∧ ¬ name.LiesIn package

theorem layout_of_blank {declared : Option Text} (h : declared.map Text.trim = some [])
    (name : TypeName) :
  name.layout declared = ⟨name.text, none, name.text⟩
  := by
  rw [layout, h]

theorem declaredLayout_of_path {name package path : Text} (hpath : path ≠ [])
    (hname : name = package ++ "." ++ path) :
  declaredLayout name package = ⟨name, some package, path⟩
  := by
  obtain ⟨c, path, rfl⟩ := List.exists_cons_of_ne_nil hpath
  rw [declaredLayout, Text.after?_eq_some_iff.2 hname]

theorem layout_of_path {name : TypeName} {declared : Option Text} {package path : Text}
    (h : declared.map Text.trim = some package) (hpackage : package ≠ []) (hpath : path ≠ [])
    (hname : name.text = package ++ "." ++ path) :
  name.layout declared = ⟨name.text, some package, path⟩
  := by
  obtain ⟨c, package, rfl⟩ := List.exists_cons_of_ne_nil hpackage
  rw [layout, h]
  apply declaredLayout_of_path hpath hname

theorem layout_of_ignores {name : TypeName} {declared : Option Text} (h : name.Ignores declared) :
  name.layout declared = lastSegmentLayout name.text
  := by
  rw [layout]
  split
  · rfl
  · rename_i hblank
    apply absurd rfl (h [] hblank).1
  · rename_i c package hpackage
    rw [declaredLayout]
    split
    · rename_i d path hpath
      apply absurd _ (h _ hpackage).2
      use d :: path, List.cons_ne_nil d path
      apply Text.after?_eq_some_iff.1 hpath
    · rfl

theorem dot_not_mem_classPath_lastSegmentLayout (name : Text) :
  '.' ∉ (lastSegmentLayout name).classPath
  := by
  rw [lastSegmentLayout]
  split
  · rename_i package path h
    apply (Text.cutLast?_eq_some_iff.1 h).2
  · rename_i h
    apply Text.cutLast?_eq_none_iff.1 h

end TypeName

namespace Layout

/-- Whether a layout splits a name at the right place.  The parts make up the name.  A declared
package that is blank is the default package, and one that the name lies in is the package; in
every other case the class path is what follows the last dot. -/
structure IsSplitOf (l : Layout) (name : TypeName) (declared : Option Text) : Prop where
  qualified_eq : l.qualified = name.text
  rejoined_eq : l.rejoined = l.qualified
  package_of_blank : declared.map Text.trim = some [] → l.package = none
  package_of_liesIn : ∀ package, declared.map Text.trim = some package → package ≠ [] →
    name.LiesIn package → l.package = some package
  dot_not_mem_classPath : name.Ignores declared → '.' ∉ l.classPath

theorem stem_of_not_mem {l : Layout} (h : '.' ∉ l.classPath) :
  l.stem = l.rejoined
  := by
  rw [stem, rejoined, flattenedPath, Text.substitute_of_not_mem h]

/-- A layout whose class path has no dot is told by the name that it splits. -/
theorem package_eq_of_rejoined_eq {l l' : Layout} (h : '.' ∉ l.classPath) (h' : '.' ∉ l'.classPath)
    (heq : l.rejoined = l'.rejoined) :
  l.package = l'.package
  := by
  rw [← stem_of_not_mem h, ← stem_of_not_mem h'] at heq
  exact (stem_eq_iff.1 heq).1

theorem classPath_eq_of_rejoined_eq {l l' : Layout} (hpackage : l.package = l'.package)
    (h : l.rejoined = l'.rejoined) :
  l.classPath = l'.classPath
  := by
  rw [rejoined, rejoined, hpackage] at h
  cases hp : l'.package with
  | none =>
    rw [hp] at h
    exact h
  | some package =>
    rw [hp] at h
    exact List.append_cancel_left h

/-- A name is split at one place only. -/
theorem IsSplitOf.eq {l l' : Layout} {name : TypeName} {declared : Option Text}
    (h : l.IsSplitOf name declared) (h' : l'.IsSplitOf name declared) :
  l = l'
  := by
  have hqualified : l.qualified = l'.qualified := h.qualified_eq.trans h'.qualified_eq.symm
  have hrejoined : l.rejoined = l'.rejoined := by
    rw [h.rejoined_eq, h'.rejoined_eq, hqualified]
  have hpackage : l.package = l'.package := by
    by_cases hignored : name.Ignores declared
    · apply package_eq_of_rejoined_eq (h.dot_not_mem_classPath hignored)
        (h'.dot_not_mem_classPath hignored) hrejoined
    · obtain ⟨package, hdeclared, hused⟩ := by
        simpa only [TypeName.Ignores, not_forall] using hignored
      by_cases hblank : package = []
      · subst hblank
        rw [h.package_of_blank hdeclared, h'.package_of_blank hdeclared]
      · have hlies : name.LiesIn package := by
          by_contra hnot
          exact hused ⟨hblank, hnot⟩
        rw [h.package_of_liesIn package hdeclared hblank hlies,
          h'.package_of_liesIn package hdeclared hblank hlies]
  have hpath := classPath_eq_of_rejoined_eq hpackage hrejoined
  cases l
  cases l'
  cases hqualified
  cases hpackage
  cases hpath
  rfl

end Layout

namespace TypeName

/-- The layout of a name splits it at the right place. -/
theorem isSplitOf_layout (name : TypeName) (declared : Option Text) :
  (name.layout declared).IsSplitOf name declared
  where
  qualified_eq := name.qualified_layout declared
  rejoined_eq := (name.rejoined_layout declared).trans (name.qualified_layout declared).symm
  package_of_blank h := by
    rw [layout_of_blank h]
  package_of_liesIn := by
    rintro package h hpackage ⟨path, hpath, hname⟩
    rw [layout_of_path h hpackage hpath hname]
  dot_not_mem_classPath h := by
    rw [layout_of_ignores h]
    apply dot_not_mem_classPath_lastSegmentLayout

end TypeName

namespace Layout

/-! ### Names of artifacts -/

/-- Without its suffix, and with dots in place of the dollar signs, the name of an artifact is the
name of its owner. -/
theorem substitute_artifactName {l : Layout} (h : '$' ∉ l.rejoined) (suffix : Text) :
  (Text.before? suffix (l.artifactName suffix)).map (Text.substitute '$' '.') = some l.rejoined
  := by
  have hstem : Text.before? suffix (l.artifactName suffix) = some l.stem :=
    Text.before?_eq_some_iff.2 (l.artifactName_eq suffix)
  rw [hstem, Option.map_some, stem]
  rw [rejoined] at h ⊢
  cases hpackage : l.package with
  | none =>
    rw [hpackage] at h
    exact congrArg some (Text.substitute_undo h)
  | some package =>
    rw [hpackage] at h
    have hparts : '$' ∉ package ++ "." ∧ '$' ∉ l.classPath := by
      rw [← not_or, ← List.mem_append]
      exact h
    simp only [Text.substitute_append _ _ (package ++ _), Text.substitute_of_not_mem hparts.1,
      flattenedPath, Text.substitute_undo hparts.2]

/-- The artifact of a class that is not nested has the name of the class and the suffix. -/
theorem artifactName_of_not_mem {l : Layout} (h : '.' ∉ l.classPath) (suffix : Text) :
  l.artifactName suffix = l.rejoined ++ suffix
  := by
  rw [artifactName_eq, stem_of_not_mem h]

end Layout

namespace TypeName

/-- A layout is the one that splits the name after its declared package, or else at its last dot.
If the name has no dollar sign, it is the name of the artifact without the suffix and with dots in
place of the dollar signs, whatever package is declared.  The artifact of a class that is not nested
has the name of the class, followed by the suffix. -/
theorem layout_splits_name (name : TypeName) (declared : Option Text) :
  (∀ l : Layout, l.IsSplitOf name declared ↔ l = name.layout declared)
    ∧ ('$' ∉ name.text → ∀ suffix,
      (Text.before? suffix ((name.layout declared).artifactName suffix)).map
          (Text.substitute '$' '.')
        = some (name.layout declared).qualified)
    ∧ ('.' ∉ (name.layout declared).classPath → ∀ suffix,
      (name.layout declared).artifactName suffix = (name.layout declared).qualified ++ suffix)
  := by
  have hsplit := name.isSplitOf_layout declared
  refine ⟨?_, ?_, ?_⟩
  · intro l
    constructor
    · intro h
      apply h.eq hsplit
    · rintro rfl
      exact hsplit
  · intro h suffix
    rw [← hsplit.rejoined_eq]
    apply Layout.substitute_artifactName
    rw [name.rejoined_layout declared]
    exact h
  · intro h suffix
    rw [← hsplit.rejoined_eq]
    apply Layout.artifactName_of_not_mem h

/-- A nested class whose name has dots that follow each other, in a package that is declared with
blank characters around it. -/
theorem dotted_layout_splits :
  '$' ∉ (".a..Outer.Inner" : Text)
    ∧ layout ⟨".a..Outer.Inner"⟩ (some " .a ") = ⟨".a..Outer.Inner", some ".a", ".Outer.Inner"⟩
    ∧ (Text.before? "$$Icicle" ".a.$Outer$Inner$$Icicle").map (Text.substitute '$' '.')
      = some ↑".a..Outer.Inner"
  := by
  have hdollar : '$' ∉ (".a..Outer.Inner" : Text) := by
    decide
  obtain ⟨hsplit, hname, -⟩ := layout_splits_name ⟨".a..Outer.Inner"⟩ (some " .a ")
  have hlayout : layout ⟨".a..Outer.Inner"⟩ (some " .a ")
      = ⟨".a..Outer.Inner", some ".a", ".Outer.Inner"⟩ := by
    decide
  use hdollar, hlayout
  have hartifact := hname hdollar "$$Icicle"
  rw [hlayout] at hartifact
  apply hartifact

end TypeName

end InstanceState
