import InstanceState.Proofs.Generation.Retention
import InstanceState.Proofs.Sink.Directory

/-!
# Where companions are placed

The files of an owner's artifact lie below every root exactly if no segment of the owner's package
and not its class path begins with a slash.  No name without a slash leaves the root.  A name with
such a segment is given files that are the same for all roots.
-/

namespace InstanceState

open Batch

namespace Layout

/-- Whether a segment of the package or the class path begins with a slash. -/
def LeavesRoot (l : Layout) : Prop :=
  (∃ package, l.package = some package ∧ ∃ s ∈ Text.pieces '.' package, Path.isRooted s = true)
    ∨ Path.isRooted l.classPath = true

theorem isRooted_companionName (l : Layout) {suffix : Text} (h : '/' ∉ suffix) :
  Path.isRooted (l.companionName suffix) = Path.isRooted l.classPath
  := by
  rw [companionName, Text.substitute]
  cases l.classPath with
  | nil =>
    rw [List.map_nil, List.nil_append, Path.isRooted, decide_eq_false]
    · rfl
    · intro hhead
      apply h (List.mem_of_head? hhead)
  | cons c path =>
    by_cases hc : c = '.'
    · simp [hc, Path.isRooted]
    · simp [hc, Path.isRooted]

/-- The segments of an artifact's name: those of the package, and the name of the companion. -/
theorem pieces_artifactName (l : Layout) {suffix : Text} (h : '.' ∉ suffix) :
  Text.pieces '.' (l.artifactName suffix)
    = (l.package.toList.flatMap (Text.pieces '.')) ++ [l.companionName suffix]
  := by
  have hdot : '.' ∉ l.companionName suffix := by
    rw [companionName, List.mem_append, not_or]
    exact ⟨l.dot_not_mem_flattenedPath, h⟩
  rw [artifactName]
  cases l.package with
  | none => rw [Text.pieces_of_not_mem hdot, Option.toList_none, List.flatMap_nil, List.nil_append]
  | some package =>
    rw [Option.toList_some, List.flatMap_singleton, ← Text.pieces_of_not_mem hdot,
      ← Text.pieces_append_separator]
    congr 1
    apply List.append_assoc

theorem leavesRoot_iff (l : Layout) {suffix : Text} (hdot : '.' ∉ suffix) (hslash : '/' ∉ suffix) :
  l.LeavesRoot ↔ ∃ s ∈ Text.pieces '.' (l.artifactName suffix), Path.isRooted s = true
  := by
  rw [l.pieces_artifactName hdot, LeavesRoot, ← l.isRooted_companionName hslash]
  constructor
  · rintro (⟨package, hpackage, s, hs, hrooted⟩ | hrooted)
    · refine ⟨s, List.mem_append_left _ ?_, hrooted⟩
      rw [hpackage, Option.toList_some, List.flatMap_singleton]
      exact hs
    · exact ⟨_, List.mem_append_right _ (List.mem_singleton_self _), hrooted⟩
  · rintro ⟨s, hs, hrooted⟩
    rw [List.mem_append, List.mem_flatMap, List.mem_singleton] at hs
    rcases hs with ⟨package, hpackage, hs⟩ | rfl
    · exact .inl ⟨package, Option.mem_toList.1 hpackage, s, hs, hrooted⟩
    · exact .inr hrooted

end Layout

/-- A suffix that the settings allow holds neither a dot nor a slash. -/
theorem GeneratorSettings.not_mem_suffix {s : GeneratorSettings} (h : s.fault? = none) {c : Char}
    (hc : isSuffixChar c = false) :
  c ∉ s.suffix
  := by
  cases hall : s.suffix.all isSuffixChar with
  | false =>
    rw [fault?, hall] at h
    cases hempty : s.suffix.isEmpty <;> simp [hempty] at h
  | true =>
    intro hmem
    rw [List.all_eq_true.1 hall c hmem] at hc
    contradiction

namespace Generator

variable (g : Generator)

theorem not_leavesRoot_layoutOf (fields : List Field) {owner : TypeName} (h : '/' ∉ owner.text) :
  ¬ (layoutOf fields owner).LeavesRoot
  := by
  have hrejoined : (layoutOf fields owner).rejoined = owner.text := owner.rejoined_layout _
  rw [Layout.rejoined] at hrejoined
  rintro (⟨package, hpackage, s, hs, hrooted⟩ | hrooted)
  · have hslash : '/' ∈ s := List.mem_of_head? (of_decide_eq_true hrooted)
    apply h
    rw [← hrejoined, hpackage]
    simp [(Text.sublist_of_mem_pieces hs).1.subset hslash]
  · have hslash : '/' ∈ (layoutOf fields owner).classPath :=
      List.mem_of_head? (of_decide_eq_true hrooted)
    apply h
    rw [← hrejoined]
    cases (layoutOf fields owner).package <;> simp [hslash]

/-- The files of an owner's artifact lie below every root exactly if no segment of the owner's
package and not its class path begins with a slash; so they do for every name without a slash.
If there is such a segment, the files are the same for all roots. -/
theorem isBelow_pathOf_iff (hsettings : g.settings.fault? = none) (fields : List Field)
    (owner : TypeName) :
  ((∀ d : ArtifactDirectory,
      d.root.IsBelow (d.pathOf (g.artifactOf fields owner))
        ∧ d.root.IsBelow (d.partialPathOf (g.artifactOf fields owner)))
      ↔ ¬ (layoutOf fields owner).LeavesRoot)
    ∧ ('/' ∉ owner.text → ¬ (layoutOf fields owner).LeavesRoot)
    ∧ ((layoutOf fields owner).LeavesRoot →
      ∃ target partialPath : Path, target.isRooted = true ∧ partialPath.isRooted = true
        ∧ ∀ d : ArtifactDirectory, d.pathOf (g.artifactOf fields owner) = target
          ∧ d.partialPathOf (g.artifactOf fields owner) = partialPath)
  := by
  have hleaves : (layoutOf fields owner).LeavesRoot
      ↔ ∃ s ∈ Text.pieces '.' (g.artifactOf fields owner), Path.isRooted s = true := by
    apply Layout.leavesRoot_iff
    · apply GeneratorSettings.not_mem_suffix hsettings
      decide
    · apply GeneratorSettings.not_mem_suffix hsettings
      decide
  have hbelow : ∀ extension ∈ ArtifactDirectory.extensions,
      (∀ d : ArtifactDirectory, d.root.IsBelow (d.pathWith (g.artifactOf fields owner) extension))
        ↔ ¬ (layoutOf fields owner).LeavesRoot := by
    intro extension he
    rw [ArtifactDirectory.isBelow_pathWith_iff he, hleaves]
    simp
  refine ⟨?_, not_leavesRoot_layoutOf fields, ?_⟩
  · rw [forall_and]
    constructor
    · rintro ⟨htarget, -⟩
      apply (hbelow ArtifactDirectory.sourceExtension List.mem_cons_self).1 htarget
    · intro h
      constructor
      · apply (hbelow ArtifactDirectory.sourceExtension List.mem_cons_self).2 h
      · apply (hbelow ArtifactDirectory.partialExtension (List.mem_cons_of_mem _
          List.mem_cons_self)).2 h
  · intro h
    obtain ⟨target, htarget, hpath⟩ := ArtifactDirectory.exists_pathWith_eq_of_isRooted
      (hleaves.1 h) ArtifactDirectory.sourceExtension
    obtain ⟨partialPath, hpartial, hpartialPath⟩ :=
      ArtifactDirectory.exists_pathWith_eq_of_isRooted (hleaves.1 h)
        ArtifactDirectory.partialExtension
    use target, partialPath, htarget, hpartial
    intro d
    exact ⟨hpath d, hpartialPath d⟩

/-- A field of an owner whose name begins with a slash. -/
def stray : List Field := [{ name := "x", declaredType := "int", owner := ⟨"/etc/passwd"⟩ }]

/-- The companion of such an owner is placed outside of the root. -/
theorem stray_leaves_root :
  ({} : GeneratorSettings).fault? = none
    ∧ ⟨"/etc/passwd"⟩ ∈ published stray
    ∧ artifactOf ⟨{}, .stock⟩ stray ⟨"/etc/passwd"⟩ = ↑"/etc/passwd$$Icicle"
    ∧ (∀ d : ArtifactDirectory, d.pathOf "/etc/passwd$$Icicle" = ↑"/etc/passwd$$Icicle.java")
    ∧ ¬ ∀ d : ArtifactDirectory,
      d.root.IsBelow (d.pathOf (artifactOf ⟨{}, .stock⟩ stray ⟨"/etc/passwd"⟩))
        ∧ d.root.IsBelow (d.partialPathOf (artifactOf ⟨{}, .stock⟩ stray ⟨"/etc/passwd"⟩))
  := by
  have hsettings : ({} : GeneratorSettings).fault? = none := by
    decide
  have hleaves : (layoutOf stray ⟨"/etc/passwd"⟩).LeavesRoot := by
    right
    decide
  obtain ⟨hbelow, -, hsame⟩ := isBelow_pathOf_iff ⟨{}, .stock⟩ hsettings stray ⟨"/etc/passwd"⟩
  obtain ⟨target, partialPath, -, -, hpaths⟩ := hsame hleaves
  refine ⟨hsettings, ?_, by decide, ?_, ?_⟩
  · rw [mem_published_iff]
    decide
  · intro d
    apply (hpaths d).1.trans
    apply (hpaths ⟨[]⟩).1.symm.trans
    decide
  · rw [hbelow, not_not]
    exact hleaves

end Generator

end InstanceState
