import InstanceState.Proofs.Sink.Places

/-!
# Separate paths

The paths of the files of plain names do not get in each other's way, whatever the root is.  Below
the root a directory has a segment as its name, which has no dot, and a file has a dot in its name;
so no file stands where another needs a directory.  What follows the first dot tells a target from a
partial file.  The directories and the file make up the name of the artifact, which the path
therefore gives back.
-/

namespace InstanceState

namespace Path

/-! ### Components -/

/-- The components of a path: where it begins, if it says so, and its names. -/
def components (path : Path) : List Text :=
  (if path.isRooted then [['/']] else [])
    ++ (if equivalent.startsHere path then [['.']] else []) ++ path.names

/-- Whether a path is one of the directories that lead to another. -/
def IsProperAncestor (p q : Path) : Prop :=
  ∃ rest : List Text, rest ≠ [] ∧ q.components = p.components ++ rest

theorem ne_of_mem_names {path : Path} {name : Text} (h : name ∈ path.names) :
  name ≠ ['/'] ∧ name ≠ ['.']
  := by
  obtain ⟨hpiece, hidle⟩ := List.mem_filter.1 h
  rw [Bool.not_eq_true', isIdle_eq_false_iff] at hidle
  constructor
  · rintro rfl
    apply (Text.sublist_of_mem_pieces hpiece).2 (List.mem_singleton_self _)
  · exact hidle.2

theorem root_mem_components_iff {path : Path} :
  (['/'] : Text) ∈ path.components ↔ path.isRooted = true
  := by
  have hnames : (['/'] : Text) ∉ path.names := fun h => (ne_of_mem_names h).1 rfl
  rw [components, List.mem_append, List.mem_append, or_iff_left hnames]
  cases path.isRooted <;> cases equivalent.startsHere path <;> decide

theorem here_mem_components_iff {path : Path} :
  (['.'] : Text) ∈ path.components ↔ equivalent.startsHere path = true
  := by
  have hnames : (['.'] : Text) ∉ path.names := fun h => (ne_of_mem_names h).2 rfl
  rw [components, List.mem_append, List.mem_append, or_iff_left hnames]
  cases path.isRooted <;> cases equivalent.startsHere path <;> decide

/-- Paths are equivalent exactly if they have the same components. -/
theorem equivalent_iff {p q : Path} :
  p.equivalent q = true ↔ p.components = q.components
  := by
  rw [equivalent, Bool.and_eq_true, Bool.and_eq_true, decide_eq_true_iff, decide_eq_true_iff,
    decide_eq_true_iff]
  constructor
  · rintro ⟨⟨hrooted, hnames⟩, hhere⟩
    rw [components, components, hrooted, hnames, hhere]
  · intro h
    have hrooted : p.isRooted = q.isRooted := by
      rw [Bool.eq_iff_iff, ← root_mem_components_iff, h, root_mem_components_iff]
    have hhere : equivalent.startsHere p = equivalent.startsHere q := by
      rw [Bool.eq_iff_iff, ← here_mem_components_iff, h, here_mem_components_iff]
    rw [components, components, hrooted, hhere] at h
    exact ⟨⟨hrooted, List.append_cancel_left h⟩, hhere⟩

theorem equivalent_eq_false_iff {p q : Path} :
  p.equivalent q = false ↔ p.components ≠ q.components
  := by
  rw [← Bool.not_eq_true, equivalent_iff]

end Path

namespace ArtifactDirectory

/-- The name of the artifact that has its file at a path below the root. -/
def artifactAt? (d : ArtifactDirectory) (path : Path) : Option Text :=
  Text.before? ("." ++ sourceExtension)
    (Text.joinWith "." (path.components.drop d.root.components.length))

/-- The paths of the files of an artifact. -/
def paths (d : ArtifactDirectory) (artifact : Text) : List Path :=
  [d.pathOf artifact, d.partialPathOf artifact]

theorem exists_of_mem_paths {d : ArtifactDirectory} {artifact : Text} {path : Path}
    (h : path ∈ d.paths artifact) :
  ∃ extension ∈ extensions, path = d.pathWith artifact extension
  := by
  rw [paths, List.mem_cons, List.mem_singleton] at h
  rcases h with rfl | rfl
  · exact ⟨_, sourceExtension_mem, rfl⟩
  · exact ⟨_, partialExtension_mem, rfl⟩

/-! ### Files of plain names -/

/-- The components of the file of a plain name: those of the root, the segments that name
directories, which have no dots, and the name of the file. -/
theorem exists_components_pathWith {artifact : Text} (h : IsPlain artifact) :
  ∃ packages name, Text.pieces '.' artifact = packages ++ [name]
    ∧ (∀ s ∈ packages, '.' ∉ s) ∧ '.' ∉ name
    ∧ ∀ (d : ArtifactDirectory), ∀ extension ∈ extensions,
      (d.pathWith artifact extension).components
        = d.root.components ++ (packages ++ [name ++ "." ++ extension])
  := by
  obtain ⟨packages, name, hpieces, hdots, hfile⟩ := exists_names_pathWith h
  obtain ⟨hpackages, hname⟩ := List.forall_mem_append.1 hdots
  use packages, name, hpieces, hpackages, hname name (List.mem_singleton_self name)
  intro d extension he
  obtain ⟨hrooted, hhere, hnames⟩ := (hfile extension he).2 d
  rw [Path.components, hrooted, hhere, hnames, Path.components]
  symm
  apply List.append_assoc

/-- No file stands where another needs a directory. -/
theorem not_isProperAncestor_pathWith {a b extension extension' : Text} (ha : IsPlain a)
    (hb : IsPlain b) (he : extension ∈ extensions) (he' : extension' ∈ extensions)
    (d : ArtifactDirectory) :
  ¬ (d.pathWith a extension).IsProperAncestor (d.pathWith b extension')
  := by
  obtain ⟨packages, name, -, -, -, hpath⟩ := exists_components_pathWith ha
  obtain ⟨packages', name', -, hdots', -, hpath'⟩ := exists_components_pathWith hb
  rintro ⟨rest, hrest, heq⟩
  rw [hpath d extension he, hpath' d extension' he', List.append_assoc d.root.components] at heq
  have hdirectories := congrArg List.dropLast (List.append_cancel_left heq)
  rw [List.dropLast_concat, List.dropLast_append_of_ne_nil hrest] at hdirectories
  -- the first file would be one of the directories of the second
  have hfile : name ++ "." ++ extension ∈ packages' := by
    rw [hdirectories]
    simp
  apply hdots' _ hfile
  simp

/-- A partial file is no target. -/
theorem components_partialPathOf_ne {a b : Text} (ha : IsPlain a) (hb : IsPlain b)
    (d : ArtifactDirectory) :
  (d.partialPathOf a).components ≠ (d.pathOf b).components
  := by
  obtain ⟨packages, name, -, -, hdot, hpath⟩ := exists_components_pathWith ha
  obtain ⟨packages', name', -, -, hdot', hpath'⟩ := exists_components_pathWith hb
  rw [partialPathOf, pathOf, hpath d _ partialExtension_mem, hpath' d _ sourceExtension_mem]
  intro heq
  have hlast := (List.append_inj' (List.append_cancel_left heq) rfl).2
  have hextension := (withExtension_inj hdot hdot' (List.singleton_inj.1 hlast)).2
  revert hextension
  decide

/-- The path of a target gives back the name of the artifact. -/
theorem artifactAt?_pathOf {artifact : Text} (h : IsPlain artifact) (d : ArtifactDirectory) :
  d.artifactAt? (d.pathOf artifact) = some artifact
  := by
  obtain ⟨packages, name, hpieces, -, -, hpath⟩ := exists_components_pathWith h
  have hjoined : Text.joinWith "." (packages ++ [name]) = artifact := by
    rw [← hpieces]
    apply Text.joinWith_pieces
  rw [artifactAt?, pathOf, hpath d _ sourceExtension_mem, List.drop_left, List.append_assoc name,
    Text.joinWith_concat_append, hjoined]
  apply Text.before?_eq_some_iff.2 rfl

/-! ### Two artifacts -/

/-- Whatever the root is, different artifacts with plain names have different paths, no file of
theirs is where the other needs a directory, and no partial file of theirs is a target of theirs.
The path of a target gives the name of the artifact back. -/
theorem paths_never_clash (d : ArtifactDirectory) {a b : Text} (ha : IsPlain a) (hb : IsPlain b) :
  (a ≠ b → (d.pathOf a).equivalent (d.pathOf b) = false)
    ∧ (∀ p ∈ d.paths a, ∀ q ∈ d.paths b, ¬ p.IsProperAncestor q ∧ ¬ q.IsProperAncestor p)
    ∧ (∀ c ∈ [a, b], ∀ c' ∈ [a, b], (d.partialPathOf c).equivalent (d.pathOf c') = false)
    ∧ ∀ c ∈ [a, b], d.artifactAt? (d.pathOf c) = some c
  := by
  have hplain : ∀ c ∈ [a, b], IsPlain c := by
    intro c hc
    rw [List.mem_cons, List.mem_singleton] at hc
    rcases hc with rfl | rfl
    · exact ha
    · exact hb
  refine ⟨?_, ?_, ?_, ?_⟩
  · intro hne
    rw [Path.equivalent_eq_false_iff]
    intro heq
    apply hne
    have hartifact := artifactAt?_pathOf ha d
    rw [artifactAt?, heq, ← artifactAt?, artifactAt?_pathOf hb] at hartifact
    exact (Option.some.inj hartifact).symm
  · intro p hp q hq
    obtain ⟨extension, he, rfl⟩ := exists_of_mem_paths hp
    obtain ⟨extension', he', rfl⟩ := exists_of_mem_paths hq
    constructor
    · apply not_isProperAncestor_pathWith ha hb he he'
    · apply not_isProperAncestor_pathWith hb ha he' he
  · intro c hc c' hc'
    rw [Path.equivalent_eq_false_iff]
    apply components_partialPathOf_ne (hplain c hc) (hplain c' hc')
  · intro c hc
    apply artifactAt?_pathOf (hplain c hc)

/-- The package of one artifact has the name of the other, whose partial file looks like it. -/
theorem java_paths_never_clash :
  IsPlain "java" ∧ IsPlain "java.partial"
    ∧ ArtifactDirectory.pathOf ⟨"./out/"⟩ "java" = ↑"./out/java.java"
    ∧ ArtifactDirectory.partialPathOf ⟨"./out/"⟩ "java" = ↑"./out/java.java.partial"
    ∧ ArtifactDirectory.pathOf ⟨"./out/"⟩ "java.partial" = ↑"./out/java/partial.java"
    ∧ ¬ Path.IsProperAncestor "./out/java.java" "./out/java/partial.java"
    ∧ Path.equivalent "./out/java.java.partial" "./out/java/partial.java" = false
    ∧ ArtifactDirectory.artifactAt? ⟨"./out/"⟩ "./out/java/partial.java" = some ↑"java.partial"
  := by
  have hjava : IsPlain "java" := by
    decide
  have hpartial : IsPlain "java.partial" := by
    decide
  have hpath : ArtifactDirectory.pathOf ⟨"./out/"⟩ "java" = ↑"./out/java.java" := by
    decide
  have hpartialPath : ArtifactDirectory.partialPathOf ⟨"./out/"⟩ "java"
      = ↑"./out/java.java.partial" := by
    decide
  have hpath' : ArtifactDirectory.pathOf ⟨"./out/"⟩ "java.partial"
      = ↑"./out/java/partial.java" := by
    decide
  obtain ⟨-, hancestor, htarget, hname⟩ := paths_never_clash ⟨"./out/"⟩ hjava hpartial
  use hjava, hpartial, hpath, hpartialPath, hpath'
  rw [← hpath, ← hpartialPath, ← hpath']
  refine ⟨?_, ?_, ?_⟩
  · exact (hancestor _ List.mem_cons_self _ List.mem_cons_self).1
  · apply htarget _ List.mem_cons_self
    simp
  · apply hname
    simp

end ArtifactDirectory

end InstanceState
