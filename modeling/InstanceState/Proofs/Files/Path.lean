import InstanceState.Files.Path
import InstanceState.Proofs.Text.Pieces

/-!
# Pushed segments

A segment that is pushed on a path puts its names after those of the path and does not change
where the path begins, unless it begins with a slash: such a segment takes the place of the path.
So a path with segments pushed on it lies below the path, or does not depend on it at all.
-/

namespace InstanceState.Path

/-- Whether a path lies below a root: it begins where the root begins and has the names of the
root, and then at least one more name, none of which leads back up. -/
def IsBelow (root path : Path) : Prop :=
  path.isRooted = root.isRooted
    ∧ equivalent.startsHere path = equivalent.startsHere root
    ∧ ∃ rest : List Text, rest ≠ [] ∧ (".." : Text) ∉ rest ∧ path.names = root.names ++ rest

/-- Whether the names of a segment can follow any others: it begins neither at the root nor with
the directory itself, and no name leads back up. -/
def StaysInside (segment : Text) : Prop :=
  isRooted segment = false ∧ equivalent.startsHere segment = false
    ∧ (".." : Text) ∉ names segment

/-! ### Names across a slash -/

theorem names_append_slash (path segment : Path) :
  names (path ++ '/' :: segment) = names path ++ names segment
  := by
  rw [names, Text.pieces_append_separator, List.filter_append]
  rfl

theorem startsHere_append_slash (path segment : Path) :
  equivalent.startsHere (path ++ '/' :: segment) = equivalent.startsHere path
  := by
  obtain ⟨ps, p, hpath, -⟩ := Text.exists_pieces_eq_concat '/' path
  rw [equivalent.startsHere, Text.pieces_append_separator, equivalent.startsHere, hpath]
  cases ps <;> rfl

theorem isRooted_append {path : Path} (h : path ≠ []) (segment : Path) :
  isRooted (path ++ segment) = isRooted path
  := by
  rw [isRooted, List.head?_append_of_ne_nil _ h, isRooted]

/-! ### Segments that stay inside -/

/-- Whether a name stands for neither the directory itself nor the one above. -/
def IsProper (name : Text) : Prop := name ≠ ['.'] ∧ name ≠ ['.', '.']

theorem isProper_of_dot_not_mem {name : Text} (h : '.' ∉ name) :
  IsProper name
  := by
  constructor
  · rintro rfl
    simp at h
  · rintro rfl
    simp at h

theorem isProper_of_length {name : Text} (h : 3 ≤ name.length) :
  IsProper name
  := by
  constructor
  · rintro rfl
    simp at h
  · rintro rfl
    simp at h

theorem isProper_of_mem_pieces {t p : Text} (h : '.' ∉ t) (hp : p ∈ Text.pieces '/' t) :
  IsProper p
  := isProper_of_dot_not_mem (mt (fun hdot => (Text.sublist_of_mem_pieces hp).1.subset hdot) h)

theorem staysInside_of_pieces {segment : Text} (h : isRooted segment = false)
    (hpieces : ∀ p ∈ Text.pieces '/' segment, IsProper p) :
  StaysInside segment
  := by
  use h
  constructor
  · rw [equivalent.startsHere, decide_eq_false_iff_not]
    intro hhead
    exact (hpieces _ (List.mem_of_head? hhead)).1 rfl
  · intro hup
    exact (hpieces _ (List.mem_of_mem_filter hup)).2 rfl

theorem staysInside_of_dot_not_mem {segment : Text} (h : isRooted segment = false)
    (hdot : '.' ∉ segment) :
  StaysInside segment
  := by
  apply staysInside_of_pieces h
  intro p hp
  apply isProper_of_mem_pieces hdot hp

theorem isRooted_of_slash_not_mem {segment : Text} (h : '/' ∉ segment) :
  isRooted segment = false
  := by
  rw [isRooted, decide_eq_false_iff_not]
  exact fun hhead => h (List.mem_of_head? hhead)

theorem isRooted_withExtension (name extension : Text) :
  isRooted (name ++ "." ++ extension) = isRooted name
  := by
  cases name <;> rfl

theorem isIdle_eq_false_iff {name : Text} :
  isIdle name = false ↔ name ≠ [] ∧ name ≠ ['.']
  := by
  rw [isIdle, Bool.or_eq_false_iff, List.isEmpty_eq_false_iff, decide_eq_false_iff_not]

theorem isIdle_of_length {name : Text} (h : 2 ≤ name.length) :
  isIdle name = false
  := by
  rw [isIdle_eq_false_iff]
  constructor
  · rintro rfl
    simp at h
  · rintro rfl
    simp at h

theorem names_of_slash_not_mem {segment : Text} (hslash : '/' ∉ segment)
    (hidle : isIdle segment = false) :
  names segment = [segment]
  := by
  rw [names, Text.pieces_of_not_mem hslash, List.filter_singleton, hidle]
  rfl

theorem names_ne_nil_of_mem_pieces {t p : Text} (hp : p ∈ Text.pieces '/' t)
    (h : 2 ≤ p.length) :
  names t ≠ []
  := by
  apply List.ne_nil_of_mem (a := p)
  rw [names, List.mem_filter, isIdle_of_length h]
  exact ⟨hp, rfl⟩

/-- The names of a segment with an extension, which goes with the last of them. -/
theorem exists_names_withExtension {name : Text} (hdot : '.' ∉ name) :
  ∃ (above : List Text) (last : Text), '.' ∉ last
    ∧ ∀ extension : Text, '/' ∉ extension → 2 ≤ extension.length →
      names (name ++ "." ++ extension) = above ++ [last ++ "." ++ extension]
  := by
  obtain ⟨ps, last, hname, happend⟩ := Text.exists_pieces_eq_concat '/' name
  have hlast : last ∈ Text.pieces '/' name := by
    rw [hname]
    apply List.mem_append_right _ (List.mem_singleton_self last)
  use ps.filter fun p => !isIdle p, last
  constructor
  · intro h
    apply hdot ((Text.sublist_of_mem_pieces hlast).1.subset h)
  · intro extension hslash hlength
    have hnoslash : '/' ∉ ("." : Text) ++ extension := by
      simp [hslash]
    have hidle : isIdle (last ++ "." ++ extension) = false := by
      apply isIdle_of_length
      rw [List.length_append]
      omega
    rw [names, List.append_assoc, happend _ hnoslash, List.filter_append, ← List.append_assoc,
      List.filter_singleton, hidle]
    rfl

/-- A name with an extension stays inside, and is the name of something. -/
theorem staysInside_withExtension {name extension : Text} (h : isRooted name = false)
    (hdot : '.' ∉ name) (hslash : '/' ∉ extension) (hlength : 2 ≤ extension.length) :
  StaysInside (name ++ "." ++ extension) ∧ names (name ++ "." ++ extension) ≠ []
  := by
  obtain ⟨ps, p, hname, happend⟩ := Text.exists_pieces_eq_concat '/' name
  have hpieces : Text.pieces '/' (name ++ "." ++ extension) = ps ++ [p ++ '.' :: extension] := by
    rw [List.append_assoc]
    apply happend
    simp [hslash]
  have hlast : 3 ≤ (p ++ '.' :: extension).length := by
    rw [List.length_append, List.length_cons]
    omega
  constructor
  · apply staysInside_of_pieces ((isRooted_withExtension name extension).trans h)
    intro q hq
    rw [hpieces, List.mem_append, List.mem_singleton] at hq
    rcases hq with hq | rfl
    · apply isProper_of_mem_pieces hdot
      rw [hname]
      apply List.mem_append_left _ hq
    · apply isProper_of_length hlast
  · apply names_ne_nil_of_mem_pieces (p := p ++ '.' :: extension)
    · rw [hpieces]
      apply List.mem_append_right _ (List.mem_singleton_self _)
    · omega

/-! ### One segment -/

theorem push_of_isRooted {segment : Path} (h : segment.isRooted = true) (path : Path) :
  push path segment = segment
  := by
  rw [isRooted, decide_eq_true_eq] at h
  rw [push, if_pos h]

theorem push_nil_of_not_isRooted {segment : Path} (h : segment.isRooted = false) :
  push [] segment = segment
  := by
  rw [isRooted, decide_eq_false_iff_not] at h
  rw [push, if_neg h, if_pos (.inl rfl), List.nil_append]

/-- A slash stands between the two, and a path that ends in one is not given another. -/
theorem exists_push_eq {path segment : Path} (h : segment.isRooted = false) (hpath : path ≠ []) :
  ∃ base, push path segment = base ++ '/' :: segment ∧ (path = base ∨ path = base ++ ['/'])
  := by
  rw [isRooted, decide_eq_false_iff_not] at h
  rw [push, if_neg h]
  by_cases hlast : path.getLast? = some '/'
  · obtain ⟨base, rfl⟩ := List.getLast?_eq_some_iff.1 hlast
    use base
    rw [if_pos (.inr hlast), List.append_assoc, List.singleton_append]
    exact ⟨rfl, .inr rfl⟩
  · use path
    rw [if_neg (not_or.2 ⟨mt List.isEmpty_iff.1 hpath, hlast⟩)]
    exact ⟨rfl, .inl rfl⟩

/-- Where a path begins does not change, and the names of the segment are put after its own. -/
theorem push_of_staysInside {segment : Text} (h : StaysInside segment) (path : Path) :
  (push path segment).isRooted = path.isRooted
    ∧ equivalent.startsHere (push path segment) = equivalent.startsHere path
    ∧ (push path segment).names = path.names ++ names segment
  := by
  obtain ⟨hrooted, hhere, -⟩ := h
  by_cases hpath : path = []
  · rw [hpath, push_nil_of_not_isRooted hrooted, hrooted, hhere]
    exact ⟨rfl, rfl, rfl⟩
  · obtain ⟨base, hpush, rfl | rfl⟩ := exists_push_eq hrooted hpath
    · rw [hpush]
      use isRooted_append hpath _, startsHere_append_slash _ _
      apply names_append_slash
    · rw [hpush, startsHere_append_slash, startsHere_append_slash, names_append_slash,
        names_append_slash]
      refine ⟨?_, rfl, ?_⟩
      · cases base <;> rfl
      · rw [List.append_assoc]
        rfl

theorem isRooted_push {path : Path} (h : path.isRooted = true) (segment : Path) :
  (push path segment).isRooted = true
  := by
  cases hs : segment.isRooted with
  | true => rw [push_of_isRooted hs, hs]
  | false =>
    have hpath : path ≠ [] := by
      rintro rfl
      contradiction
    obtain ⟨base, hpush, rfl | rfl⟩ := exists_push_eq hs hpath
    · rw [hpush, isRooted_append hpath, h]
    · rw [hpush, ← h]
      cases base <;> rfl

/-! ### Segments in turn -/

theorem foldl_push_of_staysInside {segments : List Text} (h : ∀ s ∈ segments, StaysInside s)
    (root : Path) :
  isRooted (segments.foldl push root) = root.isRooted
    ∧ equivalent.startsHere (segments.foldl push root) = equivalent.startsHere root
    ∧ names (segments.foldl push root) = root.names ++ segments.flatMap names
  := by
  induction segments generalizing root with
  | nil =>
    rw [List.foldl_nil, List.flatMap_nil, List.append_nil]
    exact ⟨rfl, rfl, rfl⟩
  | cons s segments ih =>
    obtain ⟨hrooted, hhere, hnames⟩ := push_of_staysInside (h s List.mem_cons_self) root
    obtain ⟨hrooted', hhere', hnames'⟩ :=
      ih (fun s' hs' => h s' (List.mem_cons_of_mem s hs')) (push root s)
    rw [List.foldl_cons, hrooted', hhere', hnames', hrooted, hhere, hnames, List.flatMap_cons,
      List.append_assoc]
    exact ⟨rfl, rfl, rfl⟩

/-- Segments that stay inside, one of which has a name, lead below the root. -/
theorem isBelow_foldl_push {segments : List Text} (h : ∀ s ∈ segments, StaysInside s)
    (hname : ∃ s ∈ segments, names s ≠ []) (root : Path) :
  root.IsBelow (segments.foldl push root)
  := by
  obtain ⟨hrooted, hhere, hnames⟩ := foldl_push_of_staysInside h root
  use hrooted, hhere, segments.flatMap names
  refine ⟨?_, ?_, hnames⟩
  · rw [Ne, List.flatMap_eq_nil_iff]
    intro hnil
    obtain ⟨s, hs, hne⟩ := hname
    exact hne (hnil s hs)
  · rw [List.mem_flatMap]
    rintro ⟨s, hs, hup⟩
    exact (h s hs).2.2 hup

theorem isRooted_foldl_push {path : Path} (h : path.isRooted = true) (segments : List Text) :
  isRooted (segments.foldl push path) = true
  := by
  induction segments generalizing path with
  | nil => exact h
  | cons s segments ih => apply ih (isRooted_push h s)

/-- After a segment that begins with a slash the root is forgotten. -/
theorem exists_foldl_push_eq {segments : List Text} (h : ∃ s ∈ segments, isRooted s = true) :
  ∃ path : Path, path.isRooted = true ∧ ∀ root, segments.foldl push root = path
  := by
  obtain ⟨s, hs, hrooted⟩ := h
  obtain ⟨before, after, rfl⟩ := List.append_of_mem hs
  use after.foldl push s, isRooted_foldl_push hrooted after
  intro root
  rw [List.foldl_append, List.foldl_cons, push_of_isRooted hrooted]

end InstanceState.Path
