import InstanceState.Proofs.Files.Path
import InstanceState.Sink.Directory

/-!
# Paths of artifacts

The segments of an artifact's name are pushed on the root of a directory, the last with an
extension.  If none of them begins with a slash, the file lies below the root whatever the root
is.  If one does, the file is at one and the same place for every root.
-/

namespace InstanceState.ArtifactDirectory

/-- The extensions of the files of an artifact. -/
def extensions : List Text := [sourceExtension, partialExtension]

theorem sourceExtension_mem :
  sourceExtension ∈ extensions
  := List.mem_cons_self

theorem partialExtension_mem :
  partialExtension ∈ extensions
  := List.mem_cons_of_mem _ (List.mem_singleton_self _)

theorem slash_not_mem_of_mem_extensions {extension : Text} (h : extension ∈ extensions) :
  '/' ∉ extension ∧ 2 ≤ extension.length
  := by
  rw [extensions, List.mem_cons, List.mem_singleton] at h
  rcases h with rfl | rfl <;> decide

/-- The segments of a name are pushed on the root in turn, the last with the extension. -/
theorem exists_pathWith_eq (artifact : Text) :
  ∃ packages name, Text.pieces '.' artifact = packages ++ [name]
    ∧ (∀ s ∈ packages ++ [name], '.' ∉ s)
    ∧ ∀ (d : ArtifactDirectory) (extension : Text),
      d.pathWith artifact extension
        = (packages ++ [name ++ "." ++ extension]).foldl Path.push d.root
  := by
  have hsegments : ∃ packages name, Text.pieces '.' artifact = packages ++ [name]
      ∧ ∀ (d : ArtifactDirectory) (extension : Text),
        d.pathWith artifact extension
          = (packages ++ [name ++ "." ++ extension]).foldl Path.push d.root := by
    rcases h : Text.cutLast? '.' artifact with _ | ⟨package, name⟩
    · use [], artifact, Text.pieces_of_not_mem (Text.cutLast?_eq_none_iff.1 h)
      intro d extension
      rw [pathWith, h]
      rfl
    · obtain ⟨hartifact, hname⟩ := Text.cutLast?_eq_some_iff.1 h
      use Text.pieces '.' package, name
      constructor
      · rw [hartifact, Text.pieces_append_separator, Text.pieces_of_not_mem hname]
      · intro d extension
        rw [pathWith, h, List.foldl_append]
        rfl
  obtain ⟨packages, name, hpieces, hpath⟩ := hsegments
  refine ⟨packages, name, hpieces, ?_, hpath⟩
  rw [← hpieces]
  intro s hs
  apply (Text.sublist_of_mem_pieces hs).2

/-- The file of an artifact lies below the root if no segment of the name begins with a slash. -/
theorem isBelow_pathWith {artifact extension : Text}
    (h : ∀ s ∈ Text.pieces '.' artifact, Path.isRooted s = false) (he : extension ∈ extensions)
    (d : ArtifactDirectory) :
  d.root.IsBelow (d.pathWith artifact extension)
  := by
  obtain ⟨packages, name, hpieces, hdots, hpath⟩ := exists_pathWith_eq artifact
  obtain ⟨hslash, hlength⟩ := slash_not_mem_of_mem_extensions he
  rw [hpieces] at h
  have hinside : ∀ s ∈ packages ++ [name], Path.StaysInside s := by
    intro s hs
    apply Path.staysInside_of_dot_not_mem (h s hs) (hdots s hs)
  have hname : name ∈ packages ++ [name] := List.mem_append_right _ (List.mem_singleton_self _)
  obtain ⟨hfile, hnames⟩ :=
    Path.staysInside_withExtension (h name hname) (hdots name hname) hslash hlength
  rw [hpath]
  apply Path.isBelow_foldl_push
  · intro s hs
    rw [List.mem_append, List.mem_singleton] at hs
    rcases hs with hs | rfl
    · apply hinside s (List.mem_append_left _ hs)
    · exact hfile
  · exact ⟨_, List.mem_append_right _ (List.mem_singleton_self _), hnames⟩

/-- A segment that begins with a slash puts the file of an artifact at one place for all roots. -/
theorem exists_pathWith_eq_of_isRooted {artifact : Text}
    (h : ∃ s ∈ Text.pieces '.' artifact, Path.isRooted s = true) (extension : Text) :
  ∃ path : Path, path.isRooted = true
    ∧ ∀ d : ArtifactDirectory, d.pathWith artifact extension = path
  := by
  obtain ⟨packages, name, hpieces, -, hpath⟩ := exists_pathWith_eq artifact
  have hsegment : ∃ s ∈ packages ++ [name ++ "." ++ extension], Path.isRooted s = true := by
    obtain ⟨s, hs, hrooted⟩ := h
    rw [hpieces, List.mem_append, List.mem_singleton] at hs
    rcases hs with hs | rfl
    · exact ⟨s, List.mem_append_left _ hs, hrooted⟩
    · use s ++ "." ++ extension, List.mem_append_right _ (List.mem_singleton_self _)
      rw [Path.isRooted_withExtension, hrooted]
  obtain ⟨path, hrooted, hfold⟩ := Path.exists_foldl_push_eq hsegment
  use path, hrooted
  intro d
  rw [hpath, hfold]

/-- The file of an artifact lies below every root exactly if no segment of the name begins with a
slash. -/
theorem isBelow_pathWith_iff {artifact extension : Text} (he : extension ∈ extensions) :
  (∀ d : ArtifactDirectory, d.root.IsBelow (d.pathWith artifact extension))
    ↔ ∀ s ∈ Text.pieces '.' artifact, Path.isRooted s = false
  := by
  constructor
  · intro hbelow s hs
    rw [Bool.eq_false_iff]
    intro hrooted
    obtain ⟨path, hpath, heq⟩ := exists_pathWith_eq_of_isRooted ⟨s, hs, hrooted⟩ extension
    obtain ⟨hroot, -, -⟩ := hbelow ⟨[]⟩
    rw [heq, hpath] at hroot
    contradiction
  · intro h d
    apply isBelow_pathWith h he

end InstanceState.ArtifactDirectory
