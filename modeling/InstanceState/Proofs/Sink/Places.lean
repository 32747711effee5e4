import InstanceState.Proofs.Files.Tree
import InstanceState.Proofs.Sink.Directory

/-!
# Places of artifacts

Where the files of an artifact stand in a tree.  The last name is that of the artifact with its
extension, so that no artifact has its partial file where one, or another, has its target.  The
segments of a plain name lead down one by one from the place of the root, so that different
artifacts with plain names have different places.
-/

namespace InstanceState

namespace FileTree

variable {t : FileTree}

theorem enter_of_isProper {name : Text} (h : Path.IsProper name) (place : Place) :
  enter place name = place ++ [name]
  := by
  have hup : name ≠ ↑".." := h.2
  rw [enter, if_neg hup]

theorem foldl_enter_of_isProper {names : List Text} (h : ∀ name ∈ names, Path.IsProper name)
    (place : Place) :
  names.foldl enter place = place ++ names
  := by
  induction names generalizing place with
  | nil => exact (List.append_nil place).symm
  | cons name names ih =>
    obtain ⟨hname, hnames⟩ := List.forall_mem_cons.1 h
    rw [List.foldl_cons, enter_of_isProper hname, ih hnames, List.append_assoc,
      List.singleton_append]

/-- Segments that stay inside lead on from the place of a path. -/
theorem placeOf_foldl_push {segments : List Text} (h : ∀ s ∈ segments, Path.StaysInside s)
    (t : FileTree) (path : Path) :
  t.placeOf (segments.foldl Path.push path)
    = (segments.flatMap Path.names).foldl enter (t.placeOf path)
  := by
  obtain ⟨hrooted, -, hnames⟩ := Path.foldl_push_of_staysInside h path
  rw [placeOf, placeOf, start, start, hrooted, hnames, List.foldl_append]

end FileTree

namespace ArtifactDirectory

/-- The place of the file of a committed artifact. -/
def targetPlace (d : ArtifactDirectory) (t : FileTree) (artifact : Text) : Place :=
  t.placeOf (d.pathOf artifact)

/-- The place of the partial file of an artifact. -/
def partialPlace (d : ArtifactDirectory) (t : FileTree) (artifact : Text) : Place :=
  t.placeOf (d.partialPathOf artifact)

/-- The files of an artifact stand in one directory, under one name with different extensions. -/
theorem exists_placeOf_pathWith (d : ArtifactDirectory) (t : FileTree) (artifact : Text) :
  ∃ (above : Place) (name : Text), '.' ∉ name
    ∧ ∀ extension ∈ extensions,
      t.placeOf (d.pathWith artifact extension) = above ++ [name ++ "." ++ extension]
  := by
  obtain ⟨packages, name, -, hdots, hpath⟩ := exists_pathWith_eq artifact
  have hdot : '.' ∉ name := hdots name (List.mem_append_right _ (List.mem_singleton_self name))
  obtain ⟨above, last, hlast, hnames⟩ := Path.exists_names_withExtension hdot
  -- the names of the last segment lead on from a place that does not depend on the extension
  have hplace : ∃ place : Place, ∀ extension ∈ extensions,
      t.placeOf (d.pathWith artifact extension)
        = (Path.names (name ++ "." ++ extension)).foldl FileTree.enter place := by
    cases hrooted : Path.isRooted name with
    | true =>
      use []
      intro extension _
      have hrooted' := (Path.isRooted_withExtension name extension).trans hrooted
      rw [hpath, List.foldl_append, List.foldl_cons, List.foldl_nil,
        Path.push_of_isRooted hrooted', FileTree.placeOf, FileTree.start, if_pos hrooted']
    | false =>
      use t.placeOf (packages.foldl Path.push d.root)
      intro extension he
      obtain ⟨hslash, hlength⟩ := slash_not_mem_of_mem_extensions he
      obtain ⟨hinside, -⟩ := Path.staysInside_withExtension hrooted hdot hslash hlength
      rw [hpath, List.foldl_append,
        FileTree.placeOf_foldl_push (List.forall_mem_singleton.2 hinside), List.flatMap_singleton]
  obtain ⟨place, hplace⟩ := hplace
  use above.foldl FileTree.enter place, last, hlast
  intro extension he
  obtain ⟨hslash, hlength⟩ := slash_not_mem_of_mem_extensions he
  have hproper : Path.IsProper (last ++ "." ++ extension) := by
    apply Path.isProper_of_length
    simp
    omega
  rw [hplace extension he, hnames extension hslash hlength, List.foldl_append, List.foldl_cons,
    List.foldl_nil, FileTree.enter_of_isProper hproper]

theorem withExtension_inj {name name' extension extension' : Text} (h : '.' ∉ name)
    (h' : '.' ∉ name') (heq : name ++ "." ++ extension = name' ++ "." ++ extension') :
  name = name' ∧ extension = extension'
  := by
  have hcut : Text.cutFirst? '.' (name ++ "." ++ extension) = some (name, extension) :=
    Text.cutFirst?_eq_some_iff.2 ⟨List.append_assoc _ _ _, h⟩
  have hcut' : Text.cutFirst? '.' (name' ++ "." ++ extension') = some (name', extension') :=
    Text.cutFirst?_eq_some_iff.2 ⟨List.append_assoc _ _ _, h'⟩
  rw [heq, hcut'] at hcut
  exact ⟨(congrArg Prod.fst (Option.some.inj hcut)).symm,
    (congrArg Prod.snd (Option.some.inj hcut)).symm⟩

/-- No artifact has its target where one has its partial file. -/
theorem targetPlace_ne_partialPlace (d : ArtifactDirectory) (t : FileTree)
    (artifact artifact' : Text) :
  d.targetPlace t artifact ≠ d.partialPlace t artifact'
  := by
  obtain ⟨above, name, hname, hplace⟩ := d.exists_placeOf_pathWith t artifact
  obtain ⟨above', name', hname', hplace'⟩ := d.exists_placeOf_pathWith t artifact'
  rw [targetPlace, partialPlace, pathOf, partialPathOf, hplace _ sourceExtension_mem,
    hplace' _ partialExtension_mem]
  intro heq
  have hlast := (List.append_inj' heq rfl).2
  rw [List.singleton_inj] at hlast
  have := (withExtension_inj hname hname' hlast).2
  revert this
  decide

/-! ### Plain names -/

/-- Whether the segments of a name are names of files. -/
def IsPlain (artifact : Text) : Prop :=
  ∀ segment ∈ Text.pieces '.' artifact, segment ≠ [] ∧ '/' ∉ segment

instance (artifact : Text) : Decidable (IsPlain artifact) :=
  inferInstanceAs (Decidable (∀ segment ∈ Text.pieces '.' artifact, _))

/-- The names of the file of a plain name are those of the root, the segments and, last, the name of
the file. -/
theorem exists_names_pathWith {artifact : Text} (h : IsPlain artifact) :
  ∃ packages name, Text.pieces '.' artifact = packages ++ [name]
    ∧ (∀ s ∈ packages ++ [name], '.' ∉ s)
    ∧ ∀ extension ∈ extensions,
      (∀ s ∈ packages ++ [name ++ "." ++ extension], Path.IsProper s)
        ∧ ∀ d : ArtifactDirectory,
          (d.pathWith artifact extension).isRooted = d.root.isRooted
            ∧ Path.equivalent.startsHere (d.pathWith artifact extension)
              = Path.equivalent.startsHere d.root
            ∧ (d.pathWith artifact extension).names
              = d.root.names ++ (packages ++ [name ++ "." ++ extension])
  := by
  obtain ⟨packages, name, hpieces, hsegments, hpath⟩ := exists_pathWith_eq artifact
  rw [IsPlain, hpieces] at h
  refine ⟨packages, name, hpieces, hsegments, ?_⟩
  intro extension he
  obtain ⟨hslash, hlength⟩ := slash_not_mem_of_mem_extensions he
  obtain ⟨hnames, hlast⟩ := List.forall_mem_append.1 h
  obtain ⟨hdots, hdot⟩ := List.forall_mem_append.1 hsegments
  rw [List.forall_mem_singleton] at hlast hdot
  -- each segment stays inside and is one name, which leads down
  have hinside : ∀ s ∈ packages ++ [name ++ "." ++ extension],
      Path.StaysInside s ∧ Path.names s = [s] ∧ Path.IsProper s := by
    rw [List.forall_mem_append, List.forall_mem_singleton]
    constructor
    · intro s hs
      obtain ⟨hne, hslash⟩ := hnames s hs
      refine ⟨?_, ?_, Path.isProper_of_dot_not_mem (hdots s hs)⟩
      · apply Path.staysInside_of_dot_not_mem (Path.isRooted_of_slash_not_mem hslash) (hdots s hs)
      · apply Path.names_of_slash_not_mem hslash
        exact Path.isIdle_eq_false_iff.2 ⟨hne, (Path.isProper_of_dot_not_mem (hdots s hs)).1⟩
    · have hlong : 3 ≤ (name ++ "." ++ extension).length := by
        simp
        omega
      have hnoslash : '/' ∉ name ++ "." ++ extension := by
        simp [hlast.2, hslash]
      refine ⟨?_, ?_, Path.isProper_of_length hlong⟩
      · apply (Path.staysInside_withExtension _ hdot hslash hlength).1
        apply Path.isRooted_of_slash_not_mem hlast.2
      · apply Path.names_of_slash_not_mem hnoslash
        apply Path.isIdle_of_length
        omega
  have hflat : (packages ++ [name ++ "." ++ extension]).flatMap Path.names
      = packages ++ [name ++ "." ++ extension] := by
    rw [List.flatMap_congr fun s hs => (hinside s hs).2.1]
    apply List.flatMap_singleton'
  use fun s hs => (hinside s hs).2.2
  intro d
  have hpushed := Path.foldl_push_of_staysInside (fun s hs => (hinside s hs).1) d.root
  rw [hflat] at hpushed
  rw [hpath]
  exact hpushed

/-- The segments of a plain name lead down from the place of the root. -/
theorem exists_placeOf_of_isPlain {artifact : Text} (h : IsPlain artifact) :
  ∃ packages name, Text.pieces '.' artifact = packages ++ [name]
    ∧ ∀ (d : ArtifactDirectory) (t : FileTree), ∀ extension ∈ extensions,
      t.placeOf (d.pathWith artifact extension)
        = t.placeOf d.root ++ packages ++ [name ++ "." ++ extension]
  := by
  obtain ⟨packages, name, hpieces, -, hfile⟩ := exists_names_pathWith h
  refine ⟨packages, name, hpieces, ?_⟩
  intro d t extension he
  obtain ⟨hproper, hpath⟩ := hfile extension he
  obtain ⟨hrooted, -, hnames⟩ := hpath d
  rw [FileTree.placeOf, FileTree.placeOf, FileTree.start, FileTree.start, hrooted, hnames,
    List.foldl_append, FileTree.foldl_enter_of_isProper hproper]
  exact (List.append_assoc _ _ _).symm

/-- Different artifacts with plain names have their files at different places. -/
theorem eq_of_placeOf_pathWith_eq {artifact artifact' extension : Text} (h : IsPlain artifact)
    (h' : IsPlain artifact') (he : extension ∈ extensions) {d : ArtifactDirectory} {t : FileTree}
    (heq : t.placeOf (d.pathWith artifact extension)
      = t.placeOf (d.pathWith artifact' extension)) :
  artifact = artifact'
  := by
  obtain ⟨packages, name, hpieces, hplace⟩ := exists_placeOf_of_isPlain h
  obtain ⟨packages', name', hpieces', hplace'⟩ := exists_placeOf_of_isPlain h'
  rw [hplace d t extension he, hplace' d t extension he] at heq
  obtain ⟨habove, hlast⟩ := List.append_inj' heq rfl
  have hpackages := List.append_cancel_left habove
  have hname := List.append_cancel_right (List.append_cancel_right (List.singleton_inj.1 hlast))
  apply Text.pieces_injective '.'
  rw [hpieces, hpieces', hpackages, hname]

end ArtifactDirectory

end InstanceState
