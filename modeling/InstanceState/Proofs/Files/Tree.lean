import InstanceState.Files.Tree
import Mathlib.Data.List.Basic
import Mathlib.Data.List.Infix

/-!
# Well-formed trees

A tree is well formed if what stands in it stands in directories, and if each of its files stands at
one place.  The place of a path is where its names lead; a path leads there in every tree that has
the directories on the way.  A tree differs from another in the files of some places only if all
other files are the same, under the same numbers, and no directory is missing.
-/

namespace InstanceState.FileTree

variable {t t' t'' : FileTree}

/-! ### Entries -/

theorem find?_nil (t : FileTree) :
  t.find? [] = some .directory
  := rfl

theorem find?_of_ne_nil {place : Place} (h : place ≠ []) :
  t.find? place = t.entries.lookup place
  := by
  rw [find?, if_neg h]

theorem lookup_cons_eq_ite (key : Place) (entry : Entry) (entries : List (Place × Entry))
    (place : Place) :
  ((key, entry) :: entries).lookup place
    = if place = key then some entry else entries.lookup place
  := by
  rw [List.lookup_cons]
  by_cases h : place = key
  · rw [if_pos h, beq_iff_eq.2 h]
  · rw [if_neg h, beq_eq_false_iff_ne.2 h]

theorem lookup_filter_key (p : Place → Bool) (entries : List (Place × Entry)) (place : Place) :
  (entries.filter fun e => p e.1).lookup place
    = if p place = true then entries.lookup place else none
  := by
  induction entries with
  | nil => simp
  | cons e entries ih =>
    obtain ⟨key, entry⟩ := e
    rw [List.filter_cons, lookup_cons_eq_ite]
    by_cases hkey : place = key
    · subst hkey
      cases hp : p place <;> simp [hp, ih]
    · cases hp : p key <;> simp [lookup_cons_eq_ite, hkey, ih]

theorem find?_put {place : Place} (h : place ≠ []) (t : FileTree) (entry : Entry) (q : Place) :
  (t.put place entry).find? q = if q = place then some entry else t.find? q
  := by
  by_cases hq : q = []
  · subst hq
    rw [if_neg (Ne.symm h), find?_nil, find?_nil]
  · rw [find?_of_ne_nil hq, find?_of_ne_nil hq, put, lookup_cons_eq_ite,
      lookup_filter_key fun key => decide (key ≠ place)]
    by_cases hplace : q = place
    · rw [if_pos hplace, if_pos hplace]
    · rw [if_neg hplace, if_neg hplace, if_pos (decide_eq_true hplace)]

theorem lookup_erase (t : FileTree) (place q : Place) :
  (t.erase place).entries.lookup q = if place <+: q then none else t.entries.lookup q
  := by
  rw [erase, lookup_filter_key fun key => !place.isPrefixOf key]
  by_cases hunder : place <+: q
  · rw [if_pos hunder, List.isPrefixOf_iff_prefix.2 hunder]
    rfl
  · rw [if_neg hunder, Bool.eq_false_iff.2 (mt List.isPrefixOf_iff_prefix.1 hunder)]
    rfl

theorem find?_erase {place : Place} (h : place ≠ []) (t : FileTree) (q : Place) :
  (t.erase place).find? q = if place <+: q then none else t.find? q
  := by
  by_cases hq : q = []
  · subst hq
    rw [if_neg (mt List.prefix_nil.1 h), find?_nil, find?_nil]
  · rw [find?_of_ne_nil hq, find?_of_ne_nil hq, lookup_erase]

/-- Entries of which those below `source` are put below `target`. -/
theorem lookup_map_move {source target : Place} {entries : List (Place × Entry)}
    (h : ∀ e ∈ entries, ¬ target <+: e.1) (q : Place) :
  (entries.map fun e =>
      if source.isPrefixOf e.1 then (target ++ e.1.drop source.length, e.2) else e).lookup q
    = if target <+: q then entries.lookup (source ++ q.drop target.length)
      else if source <+: q then none
      else entries.lookup q
  := by
  induction entries with
  | nil => simp
  | cons e entries ih =>
    obtain ⟨key, entry⟩ := e
    obtain ⟨hkey, hentries⟩ := List.forall_mem_cons.1 h
    dsimp only at hkey
    rw [List.map_cons]
    dsimp only
    by_cases hsource : source <+: key
    · obtain ⟨rest, rfl⟩ := hsource
      rw [if_pos (List.isPrefixOf_iff_prefix.2 (List.prefix_append source rest)),
        List.drop_left, lookup_cons_eq_ite, ih hentries]
      by_cases htarget : target <+: q
      · obtain ⟨rest', rfl⟩ := htarget
        simp only [List.prefix_append, if_true, List.drop_left, lookup_cons_eq_ite,
          List.append_cancel_left_eq]
      · have hne : q ≠ target ++ rest := by
          rintro rfl
          exact htarget (List.prefix_append target rest)
        rw [if_neg hne, if_neg htarget, if_neg htarget, lookup_cons_eq_ite]
        by_cases hq : source <+: q
        · rw [if_pos hq, if_pos hq]
        · have hne' : q ≠ source ++ rest := by
            rintro rfl
            exact hq (List.prefix_append source rest)
          rw [if_neg hq, if_neg hq, if_neg hne']
    · rw [if_neg (mt List.isPrefixOf_iff_prefix.1 hsource), lookup_cons_eq_ite, ih hentries,
        lookup_cons_eq_ite, lookup_cons_eq_ite]
      by_cases htarget : target <+: q
      · have hne : q ≠ key := by
          rintro rfl
          exact hkey htarget
        have hne' : source ++ q.drop target.length ≠ key := by
          rintro rfl
          exact hsource (List.prefix_append source _)
        rw [if_neg hne, if_pos htarget, if_pos htarget, if_neg hne']
      · rw [if_neg htarget, if_neg htarget]
        by_cases hq : source <+: q
        · have hne : q ≠ key := by
            rintro rfl
            exact hsource hq
          rw [if_neg hne, if_pos hq, if_pos hq]
        · rw [if_neg hq, if_neg hq]

/-- After a move what stood at or below `source` stands at or below `target`, in place of what
stood there before. -/
theorem find?_move {source target : Place} (hsource : source ≠ []) (htarget : target ≠ [])
    (hbelow : ¬ source <+: target) (habove : ¬ target <+: source) (t : FileTree) (q : Place) :
  (t.move source target).find? q
    = if target <+: q then t.find? (source ++ q.drop target.length)
      else if source <+: q then none
      else t.find? q
  := by
  have hentries : ∀ e ∈ (t.erase target).entries, ¬ target <+: e.1 := by
    intro e he hunder
    obtain ⟨-, hkeep⟩ := List.mem_filter.1 he
    rw [List.isPrefixOf_iff_prefix.2 hunder] at hkeep
    contradiction
  by_cases hq : q = []
  · subst hq
    rw [if_neg (mt List.prefix_nil.1 htarget), if_neg (mt List.prefix_nil.1 hsource), find?_nil,
      find?_nil]
  · have hkept : ∀ rest, ¬ target <+: source ++ rest := by
      intro rest hunder
      rcases List.prefix_or_prefix_of_prefix hunder (List.prefix_append source rest) with h | h
      · exact habove h
      · exact hbelow h
    have hne : ∀ rest, source ++ rest ≠ [] := by
      intro rest h
      exact hsource (List.append_eq_nil_iff.1 h).1
    rw [find?_of_ne_nil hq, move, lookup_map_move hentries, lookup_erase, lookup_erase,
      if_neg (hkept _), find?_of_ne_nil (hne _), find?_of_ne_nil hq]
    by_cases hunder : target <+: q
    · simp only [if_pos hunder]
    · simp only [if_neg hunder]

/-! ### Well-formed trees -/

/-- What stands in a tree stands in a directory, and a file stands at one place and has octets. -/
structure WellFormed (t : FileTree) : Prop where
  directory_of_find? : ∀ {place name entry},
    t.find? (place ++ [name]) = some entry → t.find? place = some .directory
  lt_length_of_find? : ∀ {place number},
    t.find? place = some (.file number) → number < t.contents.length
  eq_of_find? : ∀ {place place' number},
    t.find? place = some (.file number) → t.find? place' = some (.file number) → place = place'
  find?_workplace : t.find? t.workplace = some .directory

theorem wellFormed_empty :
  WellFormed {}
  := by
  have hfind : ∀ {place entry}, find? {} place = some entry → place = [] ∧ entry = .directory := by
    intro place entry h
    by_cases hplace : place = []
    · subst hplace
      exact ⟨rfl, (Option.some.inj h).symm⟩
    · rw [find?_of_ne_nil hplace] at h
      contradiction
  constructor
  · intro place name entry h
    exact absurd (hfind h).1 (List.append_ne_nil_of_right_ne_nil _ (List.cons_ne_nil _ _))
  · intro place number h
    cases (hfind h).2
  · intro place place' number h
    cases (hfind h).2
  · rfl

/-- The directory in which a directory stands. -/
theorem WellFormed.find?_dropLast (h : t.WellFormed) {place : Place}
    (hplace : t.find? place = some .directory) :
  t.find? place.dropLast = some .directory
  := by
  rcases List.eq_nil_or_concat place with rfl | ⟨above, name, rfl⟩
  · exact hplace
  · rw [List.concat_eq_append] at hplace ⊢
    rw [List.dropLast_concat]
    exact h.directory_of_find? hplace

/-- What something stands below is a directory. -/
theorem WellFormed.find?_of_prefix (h : t.WellFormed) {place q : Place} {entry : Entry}
    (hq : t.find? q = some entry) (hunder : place <+: q) (hne : q ≠ place) :
  t.find? place = some .directory
  := by
  obtain ⟨rest, rfl⟩ := hunder
  induction rest using List.reverseRecOn generalizing entry with
  | nil => exact absurd (List.append_nil place) hne
  | append_singleton rest name ih =>
    rw [← List.append_assoc] at hq
    have hdirectory := h.directory_of_find? hq
    by_cases hrest : place ++ rest = place
    · rwa [hrest] at hdirectory
    · exact ih hdirectory hrest

/-- Nothing stands below what is not a directory. -/
theorem WellFormed.find?_below (h : t.WellFormed) {place q : Place}
    (hplace : t.find? place ≠ some .directory) (hunder : place <+: q) (hne : q ≠ place) :
  t.find? q = none
  := by
  rw [Option.eq_none_iff_forall_ne_some]
  intro entry hentry
  exact hplace (h.find?_of_prefix hentry hunder hne)

/-! ### Files -/

/-- The number and the octets of the file at a place, if a file stands there. -/
def fileAt? (t : FileTree) (place : Place) : Option (Nat × List UInt8) :=
  match t.find? place with
  | some (.file number) => some (number, t.octets number)
  | _ => none

/-- The octets of the file at a place, if a file stands there. -/
def octetsAt? (t : FileTree) (place : Place) : Option (List UInt8) :=
  (t.fileAt? place).map Prod.snd

theorem fileAt?_eq_some_iff {place : Place} {number : Nat} {octets : List UInt8} :
  t.fileAt? place = some (number, octets)
    ↔ t.find? place = some (.file number) ∧ t.octets number = octets
  := by
  rw [fileAt?]
  split
  · rename_i number' h
    rw [h]
    simp only [Option.some.injEq, Prod.mk.injEq, Entry.file.injEq]
    constructor
    · rintro ⟨rfl, h'⟩
      exact ⟨rfl, h'⟩
    · rintro ⟨rfl, h'⟩
      exact ⟨rfl, h'⟩
  · rename_i h
    constructor
    · rintro ⟨⟩
    · rintro ⟨h', -⟩
      exact absurd h' (h number)

theorem fileAt?_eq_none_iff {place : Place} :
  t.fileAt? place = none ↔ ∀ number, t.find? place ≠ some (.file number)
  := by
  rw [fileAt?]
  split
  · rename_i number h
    rw [h]
    simp
  · rename_i h
    exact iff_of_true rfl h

/-- The file at a place is what its entry and the octets of that entry's number tell. -/
theorem fileAt?_congr {place : Place} (hfind : t'.find? place = t.find? place)
    (hoctets : ∀ number, t.find? place = some (.file number) → t'.octets number = t.octets number) :
  t'.fileAt? place = t.fileAt? place
  := by
  rw [fileAt?, fileAt?, hfind]
  split
  · rename_i number h
    rw [hoctets number h]
  · rfl

/-! ### Places of paths -/

/-- Where a name leads from a place. -/
def enter (place : Place) (name : Text) : Place :=
  if name = ↑".." then place.dropLast else place ++ [name]

/-- The place to which the names of a path lead. -/
def placeOf (t : FileTree) (path : Path) : Place := path.names.foldl enter (t.start path)

theorem find?_start (h : t.WellFormed) (path : Path) :
  t.find? (t.start path) = some .directory
  := by
  rw [start]
  split
  · rfl
  · exact h.find?_workplace

theorem follow_eq {place q : Place} {names : List Text} (h : t.follow place names = .ok q) :
  q = names.foldl enter place
  := by
  induction names generalizing place with
  | nil =>
    rw [follow, Except.ok.injEq] at h
    exact h.symm
  | cons name rest ih =>
    rw [follow] at h
    rw [List.foldl_cons, enter]
    split_ifs at h ⊢ with hup hlong hrest
    · exact ih h
    · rw [hrest, List.foldl_nil]
      exact (Except.ok.inj h).symm
    · split at h
      · exact ih h
      · cases h
      · cases h

/-- What names lead to stands in a directory, if it stands anywhere. -/
theorem WellFormed.find?_of_follow (ht : t.WellFormed) {place q : Place} {names : List Text}
    (hplace : t.find? place = some .directory) (h : t.follow place names = .ok q)
    {above : Place} {name : Text} (hq : q = above ++ [name]) :
  t.find? above = some .directory
  := by
  induction names generalizing place with
  | nil =>
    rw [follow, Except.ok.injEq] at h
    rw [h, hq] at hplace
    exact ht.directory_of_find? hplace
  | cons first rest ih =>
    rw [follow] at h
    split_ifs at h with hup hlong hrest
    · exact ih (ht.find?_dropLast hplace) h
    · rw [hq, Except.ok.injEq] at h
      rwa [(List.append_inj' h rfl).1] at hplace
    · split at h
      · rename_i hfound
        exact ih hfound h
      · cases h
      · cases h

/-- Names lead to the same place in every tree that has the directories of the first. -/
theorem follow_of_directory
    (hdirectory : ∀ place, t.find? place = some .directory → t'.find? place = some .directory)
    {place q : Place} {names : List Text} (h : t.follow place names = .ok q) :
  t'.follow place names = .ok q
  := by
  induction names generalizing place with
  | nil => exact h
  | cons name rest ih =>
    rw [follow] at h ⊢
    split_ifs at h ⊢ with hup hlong hrest
    · exact ih h
    · exact h
    · split at h
      · rename_i hfound
        rw [hdirectory _ hfound]
        exact ih h
      · cases h
      · cases h

theorem locate_eq_follow {path : Path} {q : Place} (h : t.locate path = .ok q) :
  pathFault? path = none ∧ path ≠ [] ∧ t.follow (t.start path) path.names = .ok q
  := by
  rw [locate] at h
  split at h
  · cases h
  · rename_i hfault
    split_ifs at h with hpath
    exact ⟨hfault, hpath, h⟩

theorem locate_eq (hfault : pathFault? path = none) (hpath : path ≠ []) :
  t.locate path = t.follow (t.start path) path.names
  := by
  rw [locate, hfault, if_neg hpath]

/-- A path leads to its place, if it leads anywhere. -/
theorem eq_placeOf_of_locate {path : Path} {q : Place} (h : t.locate path = .ok q) :
  q = t.placeOf path
  := follow_eq (locate_eq_follow h).2.2

end InstanceState.FileTree
