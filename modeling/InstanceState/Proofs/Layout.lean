import InstanceState.TypeName

/-!
# Layouts

A layout splits a name without losing anything: the package, a dot and the class path are the name
again.  The name of an artifact tells the package, and the class path up to the difference between
a dot and a dollar sign; so it tells the name of its owner up to that difference.
-/

namespace InstanceState

namespace Text

theorem substitute_append (old new : Char) (s t : Text) :
  substitute old new (s ++ t) = substitute old new s ++ substitute old new t
  := List.map_append

theorem substitute_substitute (old new : Char) (t : Text) :
  substitute old new (substitute old new t) = substitute old new t
  := by
  rw [substitute, substitute, List.map_map]
  apply List.map_congr_left
  intro c _
  rw [Function.comp_apply]
  by_cases hc : c = old
  · rw [if_pos hc]
    split <;> simp_all
  · rw [if_neg hc, if_neg hc]

theorem substitute_of_not_mem {old new : Char} {t : Text} (h : old ∉ t) :
  substitute old new t = t
  := by
  apply (List.map_congr_left _).trans (List.map_id t)
  intro c hc
  rw [id, if_neg]
  rintro rfl
  contradiction

/-- A substitution can be undone where the new character was not used before. -/
theorem substitute_undo {old new : Char} {t : Text} (h : new ∉ t) :
  substitute new old (substitute old new t) = t
  := by
  rw [substitute, substitute, List.map_map]
  apply (List.map_congr_left _).trans (List.map_id t)
  intro c hc
  have hne : c ≠ new := by
    rintro rfl
    contradiction
  rw [Function.comp_apply, id]
  by_cases hold : c = old
  · rw [if_pos hold, if_pos rfl, hold]
  · rw [if_neg hold, if_neg hne]

end Text

namespace Layout

/-- The package, a dot and the class path; the class path alone in the default package. -/
def rejoined (l : Layout) : Text :=
  match l.package with
  | some package => package ++ "." ++ l.classPath
  | none => l.classPath

/-- The class path with a dollar sign in place of each dot. -/
def flattenedPath (l : Layout) : Text := Text.substitute '.' '$' l.classPath

/-- The name of an artifact without its suffix. -/
def stem (l : Layout) : Text :=
  match l.package with
  | some package => package ++ "." ++ l.flattenedPath
  | none => l.flattenedPath

/-- Two layouts coincide if they differ at most in dots against dollar signs of the class path. -/
def Coincides (l l' : Layout) : Prop :=
  l.package = l'.package ∧ l.flattenedPath = l'.flattenedPath

instance (l l' : Layout) : Decidable (l.Coincides l') :=
  inferInstanceAs (Decidable (_ ∧ _))

theorem artifactName_eq (l : Layout) (suffix : Text) :
  l.artifactName suffix = l.stem ++ suffix
  := by
  rw [artifactName, stem]
  cases l.package with
  | none => rfl
  | some package =>
    simp only [companionName, flattenedPath, List.append_assoc]

theorem dot_not_mem_flattenedPath (l : Layout) :
  '.' ∉ l.flattenedPath
  := by
  rw [flattenedPath, Text.substitute, List.mem_map]
  rintro ⟨c, -, h⟩
  split at h
  · contradiction
  · contradiction

/-- The package of a stem is what comes before its last dot. -/
theorem cutLast?_stem (l : Layout) :
  Text.cutLast? '.' l.stem = l.package.map fun package => (package, l.flattenedPath)
  := by
  rw [stem]
  cases l.package with
  | none => apply Text.cutLast?_eq_none_iff.2 l.dot_not_mem_flattenedPath
  | some package =>
    apply Text.cutLast?_eq_some_iff.2
    constructor
    · apply List.append_assoc
    · apply l.dot_not_mem_flattenedPath

theorem stem_eq_iff {l l' : Layout} :
  l.stem = l'.stem ↔ l.Coincides l'
  := by
  constructor
  · intro h
    have hcut := congrArg (Text.cutLast? '.') h
    rw [cutLast?_stem, cutLast?_stem] at hcut
    cases hp : l.package with
    | none =>
      have hp' : l'.package = none := by
        rw [hp, Option.map_none] at hcut
        apply Option.map_eq_none_iff.1 hcut.symm
      rw [stem, stem, hp, hp'] at h
      constructor
      · rw [hp, hp']
      · exact h
    | some package =>
      rw [hp, Option.map_some] at hcut
      obtain ⟨package', hp', hpair⟩ := Option.map_eq_some_iff.1 hcut.symm
      obtain ⟨hpackage, hpath⟩ := Prod.mk.inj hpair
      constructor
      · rw [hp, hp', hpackage]
      · exact hpath.symm
  · rintro ⟨hpackage, hpath⟩
    rw [stem, stem, hpackage, hpath]

/-- The artifacts of two layouts have one name exactly if the layouts coincide. -/
theorem artifactName_eq_iff {l l' : Layout} {suffix : Text} :
  l.artifactName suffix = l'.artifactName suffix ↔ l.Coincides l'
  := by
  rw [artifactName_eq, artifactName_eq, List.append_cancel_right_eq, stem_eq_iff]

theorem substitute_stem (l : Layout) :
  Text.substitute '.' '$' l.stem = Text.substitute '.' '$' l.rejoined
  := by
  rw [stem, rejoined]
  cases l.package with
  | none => apply Text.substitute_substitute
  | some package => simp only [flattenedPath, Text.substitute_append, Text.substitute_substitute]

end Layout

namespace TypeName

/-- The name with a dollar sign in place of each dot. -/
def flattened (name : TypeName) : Text := Text.substitute '.' '$' name.text

theorem rejoined_lastSegmentLayout (name : Text) :
  (lastSegmentLayout name).rejoined = name
  := by
  rw [lastSegmentLayout]
  split
  · rename_i package path h
    rw [(Text.cutLast?_eq_some_iff.1 h).1]
    simp [Layout.rejoined]
  · rfl

theorem rejoined_declaredLayout (name package : Text) :
  (declaredLayout name package).rejoined = name
  := by
  rw [declaredLayout]
  split
  · rename_i c path h
    rw [Text.after?_eq_some_iff.1 h]
    rfl
  · apply rejoined_lastSegmentLayout

/-- A layout is a split of the name, whatever package is declared. -/
theorem rejoined_layout (name : TypeName) (declared : Option Text) :
  (name.layout declared).rejoined = name.text
  := by
  rw [layout]
  split
  · apply rejoined_lastSegmentLayout
  · rfl
  · apply rejoined_declaredLayout

theorem qualified_lastSegmentLayout (name : Text) :
  (lastSegmentLayout name).qualified = name
  := by
  rw [lastSegmentLayout]
  split
  · rfl
  · rfl

/-- A layout keeps the whole name. -/
theorem qualified_layout (name : TypeName) (declared : Option Text) :
  (name.layout declared).qualified = name.text
  := by
  rw [layout]
  split
  · apply qualified_lastSegmentLayout
  · rfl
  · rw [declaredLayout]
    split
    · rfl
    · apply qualified_lastSegmentLayout

/-- Names with layouts that coincide differ at most in dots against dollar signs. -/
theorem flattened_eq_of_coincides {a b : TypeName} {declared declared' : Option Text}
    (h : (a.layout declared).Coincides (b.layout declared')) :
  a.flattened = b.flattened
  := by
  have hstem := congrArg (Text.substitute '.' '$') (Layout.stem_eq_iff.2 h)
  rw [Layout.substitute_stem, Layout.substitute_stem, rejoined_layout, rejoined_layout] at hstem
  apply hstem

end TypeName

end InstanceState
