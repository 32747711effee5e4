import InstanceState.Proofs.Files.Tree

/-!
# Operations on trees

What the operations do to a well-formed tree, said of its files and directories.  Each keeps the
tree well formed and removes no directory, and it changes the files of the places that it names and
no others.
-/

namespace InstanceState.FileTree

variable {t t' t'' : FileTree} {touched touched' : Place → Prop}

/-! ### Trees that differ in some files -/

/-- Whether a tree differs from an earlier one at most in the files of the touched places and in
more directories. -/
structure Changes (touched : Place → Prop) (t t' : FileTree) : Prop where
  wellFormed : t'.WellFormed
  workplace_eq : t'.workplace = t.workplace
  directory : ∀ {place}, t.find? place = some .directory → t'.find? place = some .directory
  fileAt?_eq : ∀ {place}, ¬ touched place → t'.fileAt? place = t.fileAt? place

namespace Changes

theorem refl (h : t.WellFormed) (touched : Place → Prop) :
  Changes touched t t
  := ⟨h, rfl, id, fun _ => rfl⟩

theorem mono (h : Changes touched t t') (hsub : ∀ place, touched place → touched' place) :
  Changes touched' t t'
  := ⟨h.wellFormed, h.workplace_eq, h.directory, fun hplace => h.fileAt?_eq (mt (hsub _) hplace)⟩

theorem trans (h : Changes touched t t') (h' : Changes touched t' t'') :
  Changes touched t t''
  where
  wellFormed := h'.wellFormed
  workplace_eq := h'.workplace_eq.trans h.workplace_eq
  directory := h'.directory ∘ h.directory
  fileAt?_eq hplace := (h'.fileAt?_eq hplace).trans (h.fileAt?_eq hplace)

theorem placeOf_eq (h : Changes touched t t') (path : Path) :
  t'.placeOf path = t.placeOf path
  := by
  rw [placeOf, placeOf, start, start, h.workplace_eq]

/-- A path leads to where it led before. -/
theorem locate (h : Changes touched t t') {path : Path} {q : Place} (hq : t.locate path = .ok q) :
  t'.locate path = .ok q
  := by
  obtain ⟨hfault, hpath, hfollow⟩ := locate_eq_follow hq
  have hstart : t'.start path = t.start path := by
    rw [start, start, h.workplace_eq]
  rw [locate_eq hfault hpath, hstart]
  exact follow_of_directory (fun _ => h.directory) hfollow

end Changes

/-- An operation that begins with a path and succeeds goes on from the place of the path. -/
theorem locate_bind_eq_ok {α : Type} {path : Path} {f : Place → Except FileError α} {a : α}
    (h : t.locate path >>= f = .ok a) :
  t.locate path = .ok (t.placeOf path) ∧ f (t.placeOf path) = .ok a
  := by
  cases hlocate : t.locate path with
  | error e =>
    rw [hlocate] at h
    cases h
  | ok q =>
    rw [hlocate] at h
    obtain rfl := eq_placeOf_of_locate hlocate
    exact ⟨rfl, h⟩

/-- Whether a path leads to a file, which has a number and some octets. -/
structure LeadsTo (t : FileTree) (path : Path) (number : Nat) (octets : List UInt8) : Prop where
  locate_eq : t.locate path = .ok (t.placeOf path)
  wantsDirectory_eq : path.wantsDirectory = false
  fileAt?_eq : t.fileAt? (t.placeOf path) = some (number, octets)

/-- What is read is the file to which a path leads. -/
theorem read_eq_ok_iff {path : Path} {octets : List UInt8} :
  t.read path = .ok octets ↔ ∃ number, t.LeadsTo path number octets
  := by
  constructor
  · intro h
    rw [read] at h
    obtain ⟨hlocate, h⟩ := locate_bind_eq_ok h
    split at h
    · cases h
    · cases h
    · rename_i number hfind
      split_ifs at h with hwants
      refine ⟨number, hlocate, Bool.eq_false_iff.2 hwants, ?_⟩
      exact fileAt?_eq_some_iff.2 ⟨hfind, Except.ok.inj h⟩
  · rintro ⟨number, hlocate, hwants, hfile⟩
    obtain ⟨hfind, hoctets⟩ := fileAt?_eq_some_iff.1 hfile
    rw [read, hlocate]
    simp only [bind, Except.bind]
    rw [hfind, hwants]
    exact congrArg Except.ok hoctets

theorem octetsAt?_of_read_eq {path : Path} {octets : List UInt8} (h : t.read path = .ok octets) :
  t.octetsAt? (t.placeOf path) = some octets
  := by
  obtain ⟨number, hpath⟩ := read_eq_ok_iff.1 h
  rw [octetsAt?, hpath.fileAt?_eq]
  rfl

theorem Changes.octetsAt?_eq (h : Changes touched t t') {place : Place} (hplace : ¬ touched place) :
  t'.octetsAt? place = t.octetsAt? place
  := congrArg (Option.map Prod.snd) (h.fileAt?_eq hplace)

/-- A path leads to the same file as before, unless its place is touched. -/
theorem Changes.leadsTo (h : Changes touched t t') {path : Path} {number : Nat}
    {octets : List UInt8} (hpath : t.LeadsTo path number octets)
    (hplace : ¬ touched (t.placeOf path)) :
  t'.LeadsTo path number octets
  where
  locate_eq := by
    rw [h.placeOf_eq]
    exact h.locate hpath.locate_eq
  wantsDirectory_eq := hpath.wantsDirectory_eq
  fileAt?_eq := by
    rw [h.placeOf_eq, h.fileAt?_eq hplace]
    exact hpath.fileAt?_eq

/-- A path leads to what its place now holds. -/
theorem Changes.leadsTo_of_fileAt? (h : Changes touched t t') {path : Path} {number : Nat}
    {octets : List UInt8} (hlocate : t.locate path = .ok (t.placeOf path))
    (hwants : path.wantsDirectory = false)
    (hfile : t'.fileAt? (t.placeOf path) = some (number, octets)) :
  t'.LeadsTo path number octets
  := by
  rw [← h.placeOf_eq] at hfile hlocate
  exact ⟨h.locate hlocate, hwants, hfile⟩

/-- A file that is not touched is read as before. -/
theorem Changes.read_eq (h : Changes touched t t') {path : Path}
    (hplace : ¬ touched (t.placeOf path)) {octets : List UInt8} (hread : t.read path = .ok octets) :
  t'.read path = .ok octets
  := by
  obtain ⟨number, hpath⟩ := read_eq_ok_iff.1 hread
  exact read_eq_ok_iff.2 ⟨number, h.leadsTo hpath hplace⟩

/-! ### Making directories -/

theorem changes_put_directory (ht : t.WellFormed) {place : Place} {name : Text}
    (hplace : t.find? place = some .directory) (hnone : t.find? (place ++ [name]) = none) :
  Changes (fun _ => False) t (t.put (place ++ [name]) .directory)
  := by
  have hfind : ∀ q, (t.put (place ++ [name]) .directory).find? q
      = if q = place ++ [name] then some .directory else t.find? q :=
    find?_put (List.append_ne_nil_of_right_ne_nil _ (List.cons_ne_nil _ _)) t .directory
  have hold : ∀ {q entry}, t.find? q = some entry →
      (t.put (place ++ [name]) .directory).find? q = some entry := by
    intro q entry hq
    have hne : q ≠ place ++ [name] := by
      rintro rfl
      rw [hnone] at hq
      cases hq
    rw [hfind, if_neg hne, hq]
  have hfile : ∀ {q number}, (t.put (place ++ [name]) .directory).find? q = some (.file number) →
      t.find? q = some (.file number) := by
    intro q number hq
    rw [hfind] at hq
    split_ifs at hq
    · cases hq
    · exact hq
  refine ⟨⟨?_, ?_, ?_, hold ht.find?_workplace⟩, rfl, hold, ?_⟩
  · intro q last entry hq
    rw [hfind] at hq
    split_ifs at hq with heq
    · rw [(List.append_inj' heq rfl).1]
      exact hold hplace
    · exact hold (ht.directory_of_find? hq)
  · intro q number hq
    exact ht.lt_length_of_find? (hfile hq)
  · intro q q' number hq hq'
    exact ht.eq_of_find? (hfile hq) (hfile hq')
  · intro q _
    by_cases hq : q = place ++ [name]
    · have hno : t.fileAt? q = none := by
        rw [fileAt?_eq_none_iff, hq, hnone]
        simp
      rw [hno, fileAt?_eq_none_iff, hfind, if_pos hq]
      simp
    · apply fileAt?_congr
      · rw [hfind, if_neg hq]
      · intro _ _
        rfl

theorem changes_makeDirs (ht : t.WellFormed) {place : Place}
    (hplace : t.find? place = some .directory) (names : List Text) :
  Changes (fun _ => False) t (t.makeDirs place names).2
  := by
  induction names generalizing t place with
  | nil => exact .refl ht _
  | cons name rest ih =>
    rw [makeDirs]
    by_cases hup : name = ↑".."
    · rw [if_pos hup]
      exact ih ht (ht.find?_dropLast hplace)
    · rw [if_neg hup]
      rcases hfound : t.find? (place ++ [name]) with _ | _ | number
      · dsimp only
        by_cases hlong : longestName < (Utf8.encode name).length
        · rw [if_pos hlong]
          exact .refl ht _
        · rw [if_neg hlong]
          have hput := changes_put_directory ht hplace hfound
          apply hput.trans (ih hput.wellFormed _)
          rw [find?_put (List.append_ne_nil_of_right_ne_nil _ (List.cons_ne_nil _ _)), if_pos rfl]
      · exact ih ht hfound
      · exact .refl ht _

theorem changes_createDirAll (ht : t.WellFormed) (path : Path) :
  Changes (fun _ => False) t (t.createDirAll path).2
  := by
  rw [createDirAll]
  split
  · exact .refl ht _
  · exact changes_makeDirs ht (find?_start ht path) _

/-! ### Files -/

theorem octets_set {number : Nat} (h : number < t.contents.length) (octets : List UInt8)
    (other : Nat) :
  ({ t with contents := t.contents.set number octets } : FileTree).octets other
    = if other = number then octets else t.octets other
  := by
  rw [FileTree.octets, List.getElem?_set]
  by_cases hother : number = other
  · rw [if_pos hother, if_pos h, if_pos hother.symm]
    rfl
  · rw [if_neg hother, if_neg (Ne.symm hother)]
    rfl

/-- New octets for the file at a place. -/
theorem changes_set (ht : t.WellFormed) {place : Place} {number : Nat}
    (hfind : t.find? place = some (.file number)) (octets : List UInt8) :
  Changes (· = place) t { t with contents := t.contents.set number octets }
    ∧ ({ t with contents := t.contents.set number octets } : FileTree).fileAt? place
      = some (number, octets)
  := by
  have hoctets := octets_set (ht.lt_length_of_find? hfind) octets
  constructor
  · refine ⟨⟨ht.directory_of_find?, ?_, ht.eq_of_find?, ht.find?_workplace⟩, rfl, id, ?_⟩
    · intro q number' hq
      rw [List.length_set]
      exact ht.lt_length_of_find? hq
    · intro q hq
      apply fileAt?_congr
      · rfl
      · intro number' hnumber'
        have hne : number' ≠ number := by
          rintro rfl
          exact hq (ht.eq_of_find? hnumber' hfind)
        rw [hoctets, if_neg hne]
  · rw [fileAt?_eq_some_iff, hoctets, if_pos rfl]
    exact ⟨hfind, rfl⟩

/-- A new file at a place that holds nothing. -/
theorem changes_put_file (ht : t.WellFormed) {above : Place} {name : Text}
    (habove : t.find? above = some .directory) (hnone : t.find? (above ++ [name]) = none) :
  Changes (· = above ++ [name]) t
      { t.put (above ++ [name]) (.file t.contents.length) with contents := t.contents ++ [[]] }
    ∧ ({ t.put (above ++ [name]) (.file t.contents.length) with
          contents := t.contents ++ [[]] } : FileTree).fileAt? (above ++ [name])
      = some (t.contents.length, [])
  := by
  have hfind : ∀ q, ({ t.put (above ++ [name]) (.file t.contents.length) with
        contents := t.contents ++ [[]] } : FileTree).find? q
      = if q = above ++ [name] then some (.file t.contents.length) else t.find? q :=
    find?_put (List.append_ne_nil_of_right_ne_nil _ (List.cons_ne_nil _ _)) t _
  have hoctets : ∀ number < t.contents.length,
      ({ t.put (above ++ [name]) (.file t.contents.length) with
        contents := t.contents ++ [[]] } : FileTree).octets number = t.octets number := by
    intro number hnumber
    rw [FileTree.octets, List.getElem?_append_left hnumber]
    rfl
  generalize htree : ({ t.put (above ++ [name]) (.file t.contents.length) with
    contents := t.contents ++ [[]] } : FileTree) = tree at hfind hoctets ⊢
  have hlength : tree.contents.length = t.contents.length + 1 := by
    rw [← htree, List.length_append]
    rfl
  have hdirectory : ∀ {q}, t.find? q = some .directory → tree.find? q = some .directory := by
    intro q hq
    have hne : q ≠ above ++ [name] := by
      rintro rfl
      rw [hnone] at hq
      cases hq
    rw [hfind, if_neg hne, hq]
  constructor
  · refine ⟨⟨?_, ?_, ?_, ?_⟩, ?_, hdirectory, ?_⟩
    · intro q last entry hq
      rw [hfind] at hq
      split_ifs at hq with heq
      · rw [(List.append_inj' heq rfl).1]
        exact hdirectory habove
      · exact hdirectory (ht.directory_of_find? hq)
    · intro q number hq
      rw [hfind] at hq
      split_ifs at hq
      · cases hq
        omega
      · have := ht.lt_length_of_find? hq
        omega
    · intro q q' number hq hq'
      rw [hfind] at hq hq'
      split_ifs at hq hq' with heq heq' heq'
      · rw [heq, heq']
      · cases hq
        exact absurd (ht.lt_length_of_find? hq') (Nat.lt_irrefl _)
      · cases hq'
        exact absurd (ht.lt_length_of_find? hq) (Nat.lt_irrefl _)
      · exact ht.eq_of_find? hq hq'
    · rw [← htree] at hdirectory ⊢
      exact hdirectory ht.find?_workplace
    · rw [← htree]
      rfl
    · intro q hq
      apply fileAt?_congr
      · rw [hfind, if_neg hq]
      · intro number hnumber
        exact hoctets number (ht.lt_length_of_find? hnumber)
  · rw [fileAt?_eq_some_iff, hfind, if_pos rfl, ← htree, FileTree.octets]
    simp

/-! ### Creating -/

/-- What a path that leads somewhere leads to stands in a directory, if it is not the root. -/
theorem find?_of_locate (ht : t.WellFormed) {path : Path} {above : Place} {name : Text}
    (h : t.locate path = .ok (above ++ [name])) :
  t.find? above = some .directory
  := ht.find?_of_follow (find?_start ht path) (locate_eq_follow h).2.2 rfl

/-- A path at which a file was created leads to an empty file. -/
theorem changes_create (ht : t.WellFormed) {path : Path} {file : OpenFile}
    (h : t.create path = .ok (file, t')) :
  Changes (· = t.placeOf path) t t' ∧ t'.LeadsTo path file.number [] ∧ file.offset = 0
  := by
  rw [create] at h
  obtain ⟨hlocate, h⟩ := locate_bind_eq_ok h
  rcases hfind : t.find? (t.placeOf path) with _ | _ | number
  · rw [hfind] at h
    dsimp only at h
    split_ifs at h with hwants
    have hne : t.placeOf path ≠ [] := by
      intro hnil
      rw [hnil, find?_nil] at hfind
      cases hfind
    obtain ⟨above, name, hplace⟩ := (List.eq_nil_or_concat (t.placeOf path)).resolve_left hne
    rw [List.concat_eq_append] at hplace
    have habove := find?_of_locate ht (hplace ▸ hlocate)
    obtain ⟨hchanges, hfile⟩ := changes_put_file ht habove (hplace ▸ hfind)
    rw [← hplace] at hchanges hfile
    cases h
    exact ⟨hchanges, hchanges.leadsTo_of_fileAt? hlocate (Bool.eq_false_iff.2 hwants) hfile, rfl⟩
  · rw [hfind] at h
    cases h
  · rw [hfind] at h
    dsimp only at h
    split_ifs at h with hwants
    cases h
    obtain ⟨hchanges, hfile⟩ := changes_set ht hfind []
    exact ⟨hchanges, hchanges.leadsTo_of_fileAt? hlocate (Bool.eq_false_iff.2 hwants) hfile, rfl⟩

/-! ### Writing -/

theorem overwrite_length (octets chunk : List UInt8) :
  overwrite octets octets.length chunk = octets ++ chunk
  := by
  rw [overwrite, List.take_length, Nat.sub_self, List.replicate_zero, List.append_nil,
    List.drop_eq_nil_of_le (Nat.le_add_right _ _), List.append_nil]

/-- A chunk that is written at the end of a file is put after its octets. -/
theorem changes_write (ht : t.WellFormed) {path : Path} {file : OpenFile} {octets : List UInt8}
    (hpath : t.LeadsTo path file.number octets) (hoffset : file.offset = octets.length)
    (chunk : List UInt8) :
  Changes (· = t.placeOf path) t (t.write file chunk).2
    ∧ (t.write file chunk).2.LeadsTo path (t.write file chunk).1.number (octets ++ chunk)
    ∧ (t.write file chunk).1.offset = (octets ++ chunk).length
  := by
  obtain ⟨hlocate, hwants, hfile⟩ := hpath
  obtain ⟨hfind, hoctets⟩ := fileAt?_eq_some_iff.1 hfile
  obtain ⟨hchanges, hwritten⟩ := changes_set ht hfind (octets ++ chunk)
  rw [write, hoctets, hoffset, overwrite_length]
  exact ⟨hchanges, hchanges.leadsTo_of_fileAt? hlocate hwants hwritten, List.length_append.symm⟩

/-- A tree stays well formed when it is given a file. -/
theorem wellFormed_supply (ht : t.WellFormed) (path : Path) (octets : List UInt8) :
  (t.supply path octets).WellFormed
  := by
  have hdirs := (changes_createDirAll ht path.parent).wellFormed
  rw [supply]
  split
  · rename_i file t' hcreate
    obtain ⟨hchanges, hempty, hoffset⟩ := changes_create hdirs hcreate
    exact (changes_write hchanges.wellFormed hempty hoffset octets).1.wellFormed
  · exact hdirs

/-! ### Renaming -/

/-- After a file is moved it stands at the new place and not at the old one. -/
theorem find?_move_file (ht : t.WellFormed) {source above : Place} {name : Text} {number : Nat}
    (hsource : t.find? source = some (.file number)) (habove : t.find? above = some .directory)
    (htarget : t.find? (above ++ [name]) ≠ some .directory) (hne : source ≠ above ++ [name])
    (q : Place) :
  (t.move source (above ++ [name])).find? q
    = if q = above ++ [name] then some (.file number) else if q = source then none else t.find? q
  := by
  have hfile : t.find? source ≠ some .directory := by
    rw [hsource]
    rintro ⟨⟩
  have hnil : source ≠ [] := by
    rintro rfl
    exact hfile rfl
  have hbelow : ¬ source <+: above ++ [name] := by
    intro hunder
    rw [List.prefix_concat_iff] at hunder
    rcases hunder with h | h
    · exact hne h
    · by_cases heq : above = source
      · exact hfile (heq ▸ habove)
      · rw [ht.find?_below hfile h heq] at habove
        cases habove
  have habove' : ¬ above ++ [name] <+: source := by
    intro hunder
    exact htarget (ht.find?_of_prefix hsource hunder hne)
  rw [find?_move hnil (List.append_ne_nil_of_right_ne_nil _ (List.cons_ne_nil _ _)) hbelow habove']
  by_cases hq : q = above ++ [name]
  · rw [if_pos hq, if_pos (hq ▸ List.prefix_rfl), hq, List.drop_length, List.append_nil, hsource]
  · rw [if_neg hq]
    by_cases hunder : above ++ [name] <+: q
    · obtain ⟨rest, rfl⟩ := hunder
      have hrest : source ++ rest ≠ source := by
        intro h
        rw [List.append_right_eq_self.1 h, List.append_nil] at hq
        exact hq rfl
      have hqsource : above ++ [name] ++ rest ≠ source := by
        rintro rfl
        exact habove' (List.prefix_append _ _)
      rw [if_pos (List.prefix_append _ _), List.drop_left, if_neg hqsource,
        ht.find?_below hfile (List.prefix_append _ _) hrest,
        ht.find?_below htarget (List.prefix_append _ _) hq]
    · rw [if_neg hunder]
      by_cases hqsource : q = source
      · rw [if_pos hqsource, if_pos (hqsource ▸ List.prefix_rfl)]
      · rw [if_neg hqsource]
        split_ifs with hsourceq
        · exact (ht.find?_below hfile hsourceq hqsource).symm
        · rfl

/-- A file that is moved to a place that holds no directory. -/
theorem changes_move (ht : t.WellFormed) {source above : Place} {name : Text} {number : Nat}
    (hsource : t.find? source = some (.file number)) (habove : t.find? above = some .directory)
    (htarget : t.find? (above ++ [name]) ≠ some .directory) (hne : source ≠ above ++ [name]) :
  Changes (fun place => place = source ∨ place = above ++ [name]) t
      (t.move source (above ++ [name]))
    ∧ (t.move source (above ++ [name])).fileAt? source = none
    ∧ (t.move source (above ++ [name])).fileAt? (above ++ [name])
      = some (number, t.octets number)
  := by
  have hfind := find?_move_file ht hsource habove htarget hne
  have hoctets : ∀ k, (t.move source (above ++ [name])).octets k = t.octets k := fun _ => rfl
  have hlength : (t.move source (above ++ [name])).contents.length = t.contents.length := rfl
  have hworkplace : (t.move source (above ++ [name])).workplace = t.workplace := rfl
  generalize t.move source (above ++ [name]) = tree at hfind hoctets hlength hworkplace ⊢
  have hdirectory : ∀ {q}, t.find? q = some .directory → tree.find? q = some .directory := by
    intro q hq
    have hqtarget : q ≠ above ++ [name] := by
      rintro rfl
      exact htarget hq
    have hqsource : q ≠ source := by
      rintro rfl
      rw [hsource] at hq
      cases hq
    rw [hfind, if_neg hqtarget, if_neg hqsource, hq]
  -- each file is one that stood in the tree before, at the place from which it was moved
  have hold : ∀ {q k}, tree.find? q = some (.file k) →
      t.find? (if q = above ++ [name] then source else q) = some (.file k)
        ∧ (q ≠ above ++ [name] → q ≠ source) := by
    intro q k hq
    rw [hfind] at hq
    split_ifs at hq ⊢ with hqtarget hqsource
    · cases hq
      exact ⟨hsource, fun h => absurd hqtarget h⟩
    · exact ⟨hq, fun _ => hqsource⟩
  constructor
  · refine ⟨⟨?_, ?_, ?_, ?_⟩, hworkplace, hdirectory, ?_⟩
    · intro q last entry hq
      rw [hfind] at hq
      split_ifs at hq with hqtarget hqsource
      · rw [(List.append_inj' hqtarget rfl).1]
        exact hdirectory habove
      · exact hdirectory (ht.directory_of_find? hq)
    · intro q k hq
      rw [hlength]
      exact ht.lt_length_of_find? (hold hq).1
    · intro q q' k hq hq'
      obtain ⟨hk, hqsource⟩ := hold hq
      obtain ⟨hk', hqsource'⟩ := hold hq'
      have heq := ht.eq_of_find? hk hk'
      split_ifs at heq with htarget₁ htarget₂ htarget₂
      · rw [htarget₁, htarget₂]
      · exact absurd heq.symm (hqsource' htarget₂)
      · exact absurd heq (hqsource htarget₁)
      · exact heq
    · rw [hworkplace]
      exact hdirectory ht.find?_workplace
    · intro q hq
      obtain ⟨hqsource, hqtarget⟩ := not_or.1 hq
      apply fileAt?_congr
      · rw [hfind, if_neg hqtarget, if_neg hqsource]
      · intro k _
        exact hoctets k
  · constructor
    · rw [fileAt?_eq_none_iff, hfind, if_neg hne, if_pos rfl]
      simp
    · rw [fileAt?_eq_some_iff, hfind, if_pos rfl, hoctets]
      exact ⟨rfl, rfl⟩

/-- A rename of a file that succeeds puts it at the place of the target. -/
theorem changes_rename (ht : t.WellFormed) {source target : Path}
    (h : t.rename source target = .ok t') {number : Nat} {octets : List UInt8}
    (hfile : t.fileAt? (t.placeOf source) = some (number, octets))
    (hne : t.placeOf source ≠ t.placeOf target) :
  Changes (fun place => place = t.placeOf source ∨ place = t.placeOf target) t t'
    ∧ t'.fileAt? (t.placeOf source) = none ∧ t'.LeadsTo target number octets
  := by
  obtain ⟨hsource, rfl⟩ := fileAt?_eq_some_iff.1 hfile
  rw [rename] at h
  obtain ⟨-, h⟩ := locate_bind_eq_ok h
  obtain ⟨hdestination, h⟩ := locate_bind_eq_ok h
  rw [hsource] at h
  dsimp only at h
  split_ifs at h with hwants
  obtain ⟨-, hwants⟩ := not_or.1 hwants
  -- a target with the number of the source would be at the place of the source
  have hmove : t.find? (t.placeOf target) ≠ some .directory
      ∧ t' = t.move (t.placeOf source) (t.placeOf target) := by
    rcases hfound : t.find? (t.placeOf target) with _ | _ | number'
    · rw [hfound] at h
      cases h
      exact ⟨by simp, rfl⟩
    · rw [hfound] at h
      cases h
    · rw [hfound] at h
      dsimp only at h
      split_ifs at h with hnumber
      · subst hnumber
        exact absurd (ht.eq_of_find? hsource hfound) hne
      · cases h
        exact ⟨by simp, rfl⟩
  obtain ⟨hdirectory, rfl⟩ := hmove
  have hnil : t.placeOf target ≠ [] := by
    intro hnil
    rw [hnil] at hdirectory
    exact hdirectory rfl
  obtain ⟨above, name, hplace⟩ := (List.eq_nil_or_concat (t.placeOf target)).resolve_left hnil
  rw [List.concat_eq_append] at hplace
  have habove := find?_of_locate ht (hplace ▸ hdestination)
  obtain ⟨hchanges, hgone, hthere⟩ :=
    changes_move ht hsource habove (hplace ▸ hdirectory) (hplace ▸ hne)
  rw [← hplace] at hchanges hgone hthere
  exact ⟨hchanges, hgone,
    hchanges.leadsTo_of_fileAt? hdestination (Bool.eq_false_iff.2 hwants) hthere⟩

/-! ### Removing -/

theorem changes_erase (ht : t.WellFormed) {place : Place} {number : Nat}
    (hplace : t.find? place = some (.file number)) :
  Changes (· = place) t (t.erase place) ∧ (t.erase place).fileAt? place = none
  := by
  have hfile : t.find? place ≠ some .directory := by
    rw [hplace]
    rintro ⟨⟩
  have hnil : place ≠ [] := by
    rintro rfl
    exact hfile rfl
  have hfind : ∀ q, (t.erase place).find? q = if q = place then none else t.find? q := by
    intro q
    rw [find?_erase hnil]
    by_cases hq : q = place
    · rw [if_pos hq, if_pos (hq ▸ List.prefix_rfl)]
    · rw [if_neg hq]
      split_ifs with hunder
      · exact (ht.find?_below hfile hunder hq).symm
      · rfl
  have hold : ∀ {q entry}, (t.erase place).find? q = some entry → t.find? q = some entry := by
    intro q entry hq
    rw [hfind] at hq
    split_ifs at hq
    exact hq
  have hdirectory : ∀ {q}, t.find? q = some .directory →
      (t.erase place).find? q = some .directory := by
    intro q hq
    have hne : q ≠ place := by
      rintro rfl
      exact hfile hq
    rw [hfind, if_neg hne, hq]
  constructor
  · refine ⟨⟨?_, ?_, ?_, hdirectory ht.find?_workplace⟩, rfl, hdirectory, ?_⟩
    · intro q name entry hq
      exact hdirectory (ht.directory_of_find? (hold hq))
    · intro q k hq
      exact ht.lt_length_of_find? (hold hq)
    · intro q q' k hq hq'
      exact ht.eq_of_find? (hold hq) (hold hq')
    · intro q hq
      apply fileAt?_congr
      · rw [hfind, if_neg hq]
      · intro k _
        rfl
  · rw [fileAt?_eq_none_iff, hfind, if_pos rfl]
    simp

/-- The file of a path that leads to one can be removed. -/
theorem exists_remove (ht : t.WellFormed) {path : Path} {number : Nat} {octets : List UInt8}
    (hpath : t.LeadsTo path number octets) :
  ∃ t', t.remove path = .ok t' ∧ Changes (· = t.placeOf path) t t'
    ∧ t'.fileAt? (t.placeOf path) = none
  := by
  obtain ⟨hfind, -⟩ := fileAt?_eq_some_iff.1 hpath.fileAt?_eq
  use t.erase (t.placeOf path)
  constructor
  · rw [remove, hpath.locate_eq]
    simp only [bind, Except.bind]
    rw [hfind, hpath.wantsDirectory_eq]
    rfl
  · exact changes_erase ht hfind

end InstanceState.FileTree
