import InstanceState.Proofs.Files.Machine
import InstanceState.Proofs.Runs
import InstanceState.Proofs.Sink.Places

/-!
# Partial files

What becomes of a partial file on a machine that may fail.  While it is open, the octets that it was
given are those in the file and then those in the buffer, and nothing but the partial file changes.
At the end it takes the place of its target with all these octets, or it is removed and the target
is as before.
-/

namespace InstanceState

open FileTree (Changes)

namespace PartialFile

variable {w w' w'' : PartialFile OpenFile} {octets octets' : List UInt8} {t t' t'' : FileTree}
  {touched : Place → Prop}

/-! ### Open files -/

/-- Whether a partial file is open in a tree and was given some octets: those that are in the file,
and then those in the buffer. -/
structure IsOpen (w : PartialFile OpenFile) (octets : List UInt8) (t : FileTree) : Prop where
  wellFormed : t.WellFormed
  exists_stored : ∃ stored,
    t.LeadsTo w.partialPath w.file.number stored ∧ w.file.offset = stored.length
      ∧ stored ++ w.pending = octets

/-- A partial file stays open while other files change. -/
theorem IsOpen.of_changes (h : w.IsOpen octets t) (hchanges : Changes touched t t')
    (hplace : ¬ touched (t.placeOf w.partialPath)) :
  w.IsOpen octets t'
  := by
  obtain ⟨stored, hpath, hstored⟩ := h.exists_stored
  exact ⟨hchanges.wellFormed, stored, hchanges.leadsTo hpath hplace, hstored⟩

/-- What writing does to an open partial file: it stays open at its path, for the same target, and
no other file changes. -/
structure Advances (w w' : PartialFile OpenFile) (octets : List UInt8) (t t' : FileTree) : Prop where
  changes : Changes (· = t.placeOf w.partialPath) t t'
  partialPath_eq : w'.partialPath = w.partialPath
  target_eq : w'.target = w.target
  isOpen : w'.IsOpen octets t'

theorem Advances.refl (h : w.IsOpen octets t) :
  w.Advances w octets t t
  := ⟨.refl h.wellFormed _, rfl, rfl, h⟩

theorem Advances.trans (h : w.Advances w' octets t t') (h' : w'.Advances w'' octets' t' t'') :
  w.Advances w'' octets' t t''
  where
  changes := by
    have hchanges := h'.changes
    rw [h.partialPath_eq, h.changes.placeOf_eq] at hchanges
    apply h.changes.trans hchanges
  partialPath_eq := h'.partialPath_eq.trans h.partialPath_eq
  target_eq := h'.target_eq.trans h.target_eq
  isOpen := h'.isOpen

/-! ### Writing -/

variable {m : Machine}

/-- A write to the file of an open partial file puts the octets that it takes after those in the
file, whatever is then in the buffer, or it fails and changes nothing. -/
theorem exists_writeFile (h : w.IsOpen octets m.tree) (chunk : List UInt8) :
  ∃ result file m', (Machine.system.write w.file chunk).run m = ((result, file), m')
    ∧ ((∃ e, result = .error e ∧ w.Advances { w with file } octets m.tree m'.tree)
      ∨ ∃ (n : Accepted chunk) (stored : List UInt8), result = .ok n ∧ stored ++ w.pending = octets
        ∧ ∀ pending, w.Advances { w with file, pending }
          (stored ++ chunk.take n.val ++ pending) m.tree m'.tree)
  := by
  obtain ⟨stored, hpath, hoffset, hstored⟩ := h.exists_stored
  obtain ⟨result, file, m', hrun, ⟨e, rfl, rfl, htree⟩ | ⟨n, rfl, hchanges, hpath', hoffset'⟩⟩ :=
    Machine.exists_write h.wellFormed hpath hoffset chunk
  · refine ⟨_, _, m', hrun, .inl ⟨e, rfl, ?_⟩⟩
    rw [htree]
    apply Advances.refl h
  · refine ⟨_, _, m', hrun, .inr ⟨n, stored, rfl, hstored, ?_⟩⟩
    intro pending
    exact ⟨hchanges, rfl, rfl, hchanges.wellFormed, _, hpath', hoffset', rfl⟩

/-- Flushing moves octets from the buffer to the file, all of them if it succeeds. -/
theorem exists_flush (h : w.IsOpen octets m.tree) :
  ∃ result w' m', (w.flush Machine.system).run m = ((result, w'), m')
    ∧ w.Advances w' octets m.tree m'.tree ∧ (result = .ok () → w'.pending = [])
  := by
  induction w using flush.induct generalizing m with
  | case1 w hpending =>
    use .ok (), w, m
    rw [flush, dif_pos hpending]
    exact ⟨rfl, .refl h, fun _ => hpending⟩
  | case2 w hpending ih =>
    obtain ⟨result, file, m₁, hrun, ⟨e, rfl, hadvances⟩ | ⟨n, stored, rfl, rfl, hadvances⟩⟩ :=
      exists_writeFile h w.pending
    · use .error e, { w with file }, m₁
      rw [flush, dif_neg hpending, run_bind_eq hrun]
      exact ⟨rfl, hadvances, by simp⟩
    · have hadvances := hadvances (w.pending.drop n.val)
      rw [List.append_assoc, List.take_append_drop] at hadvances
      obtain ⟨result, w', m', hrun', hadvances', hresult⟩ := ih n file hadvances.isOpen
      use result, w', m'
      rw [flush, dif_neg hpending, run_bind_eq hrun]
      exact ⟨hrun', hadvances.trans hadvances', hresult⟩

/-- The octets that a write took. -/
def takenOf {ε : Type} {chunk : List UInt8} : Except ε (Accepted chunk) → List UInt8
  | .ok n => chunk.take n.val
  | .error _ => []

theorem takenOf_ok {ε : Type} {chunk : List UInt8} (n : Accepted chunk) :
  takenOf (.ok n : Except ε (Accepted chunk)) = chunk.take n.val
  := rfl

theorem takenOf_whole {ε : Type} (chunk : List UInt8) :
  takenOf (.ok (.whole chunk) : Except ε (Accepted chunk)) = chunk
  := List.take_length

/-- Octets that are put in the buffer. -/
theorem Advances.buffer (h : w.Advances w' octets t t') (chunk : List UInt8) :
  w.Advances { w' with pending := w'.pending ++ chunk } (octets ++ chunk) t t'
  := by
  obtain ⟨stored, hpath, hoffset, rfl⟩ := h.isOpen.exists_stored
  refine ⟨h.changes, h.partialPath_eq, h.target_eq, h.isOpen.wellFormed, stored, hpath, hoffset, ?_⟩
  exact (List.append_assoc _ _ _).symm

/-- One write while nothing is in the buffer. -/
def writeEmptied {m : Type → Type} [Monad m] {F : Type} (fs : FileSystem m F) (w : PartialFile F)
    (chunk : List UInt8) : m (Except FileError (Accepted chunk) × PartialFile F) := do
  if chunk.length < capacity then
    pure (.ok (.whole chunk), { w with pending := w.pending ++ chunk })
  else
    let (result, file) ← fs.write w.file chunk
    return (result, { w with file })

theorem exists_writeEmptied (h : w.IsOpen octets m.tree) (hpending : w.pending = [])
    (chunk : List UInt8) :
  ∃ result w' m', (w.writeEmptied Machine.system chunk).run m = ((result, w'), m')
    ∧ w.Advances w' (octets ++ takenOf result) m.tree m'.tree
  := by
  by_cases hshort : chunk.length < capacity
  · use .ok (.whole chunk), { w with pending := w.pending ++ chunk }, m
    rw [writeEmptied, if_pos hshort, takenOf_whole]
    exact ⟨rfl, (Advances.refl h).buffer chunk⟩
  · rw [writeEmptied, if_neg hshort]
    obtain ⟨result, file, m', hrun, ⟨e, rfl, hfailed⟩ | ⟨n, stored, rfl, rfl, hwrote⟩⟩ :=
      exists_writeFile h chunk
    · use .error e, { w with file }, m'
      rw [run_bind_eq hrun, takenOf, List.append_nil]
      exact ⟨rfl, hfailed⟩
    · use .ok n, { w with file, pending := w.pending }, m'
      have hwrote := hwrote w.pending
      rw [hpending, List.append_nil] at hwrote ⊢
      rw [run_bind_eq hrun, takenOf]
      exact ⟨rfl, hwrote⟩

/-- A write gives a partial file the octets that it takes. -/
theorem exists_write (h : w.IsOpen octets m.tree) (chunk : List UInt8) :
  ∃ result w' m', (w.write Machine.system chunk).run m = ((result, w'), m')
    ∧ w.Advances w' (octets ++ takenOf result) m.tree m'.tree
  := by
  by_cases hfits : w.pending.length + chunk.length ≤ capacity ∧ chunk.length < capacity
  · use .ok (.whole chunk), { w with pending := w.pending ++ chunk }, m
    rw [write, if_pos hfits, takenOf_whole]
    exact ⟨rfl, (Advances.refl h).buffer chunk⟩
  · rw [write, if_neg hfits]
    dsimp only
    by_cases hroom : w.pending.length + chunk.length ≤ capacity
    · -- only a chunk as large as the buffer fits into an empty buffer and is not put there
      have hpending : w.pending = [] := by
        rw [← List.length_eq_zero_iff]
        omega
      rw [if_pos hroom, pure_bind]
      apply exists_writeEmptied h hpending chunk
    · obtain ⟨result, w₁, m₁, hflush, hadvances, hempty⟩ := exists_flush h
      rw [if_neg hroom, run_bind_eq hflush]
      rcases result with e | ⟨⟩
      · use .error e, w₁, m₁
        rw [takenOf, List.append_nil]
        exact ⟨rfl, hadvances⟩
      · obtain ⟨result, w', m', hrun, hadvances'⟩ :=
          exists_writeEmptied hadvances.isOpen (hempty rfl) chunk
        exact ⟨result, w', m', hrun, hadvances.trans hadvances'⟩

/-! ### The end of a partial file -/

/-- What a commit that succeeds does to a partial file: it holds the place of the target, with all
octets. -/
structure IsDelivered (w : PartialFile OpenFile) (octets : List UInt8) (t t' : FileTree) :
    Prop where
  changes :
    Changes (fun place => place = t.placeOf w.partialPath ∨ place = t.placeOf w.target) t t'
  octetsAt?_eq_none : t'.octetsAt? (t.placeOf w.partialPath) = none
  read_eq : t'.read w.target = .ok octets

/-- What any other end does to a partial file: it is removed, and no other file changes. -/
structure IsDropped (w : PartialFile OpenFile) (t t' : FileTree) : Prop where
  changes : Changes (· = t.placeOf w.partialPath) t t'
  octetsAt?_eq_none : t'.octetsAt? (t.placeOf w.partialPath) = none

/-- An open partial file can be removed. -/
theorem exists_remove (h : w.IsOpen octets m.tree) :
  ∃ m', (Machine.system.remove w.partialPath).run m = (.ok (), m')
    ∧ w.IsDropped m.tree m'.tree
  := by
  obtain ⟨stored, hpath, -⟩ := h.exists_stored
  obtain ⟨m', hrun, hchanges, hgone⟩ := Machine.exists_remove h.wellFormed hpath
  exact ⟨m', hrun, hchanges, hgone⟩

theorem Advances.dropped (h : w.Advances w' octets t t') (h' : w'.IsDropped t' t'') :
  w.IsDropped t t''
  := by
  obtain ⟨hchanges, hgone⟩ := h'
  rw [h.partialPath_eq, h.changes.placeOf_eq] at hchanges hgone
  exact ⟨h.changes.trans hchanges, hgone⟩

theorem Advances.delivered (h : w.Advances w' octets t t')
    (h' : w'.IsDelivered octets' t' t'') :
  w.IsDelivered octets' t t''
  := by
  obtain ⟨hchanges, hgone, hread⟩ := h'
  rw [h.partialPath_eq, h.target_eq, h.changes.placeOf_eq, h.changes.placeOf_eq] at hchanges
  rw [h.partialPath_eq, h.changes.placeOf_eq] at hgone
  rw [h.target_eq] at hread
  exact ⟨(h.changes.mono fun _ => Or.inl).trans hchanges, hgone, hread⟩

theorem exists_release (h : w.IsOpen octets m.tree) :
  ∃ w' m', (w.release Machine.system).run m = ((), m') ∧ w.Advances w' octets m.tree m'.tree
  := by
  obtain ⟨result, w', m', hrun, hadvances, -⟩ := exists_flush h
  use w', m'
  rw [release, run_bind_eq hrun]
  exact ⟨rfl, hadvances⟩

/-- Storing puts the partial file in the place of its target, or leaves it open. -/
theorem exists_store (h : w.IsOpen octets m.tree)
    (hne : m.tree.placeOf w.partialPath ≠ m.tree.placeOf w.target) :
  ∃ result m', (ArtifactDirectory.store Machine.system w).run m = (result, m')
    ∧ ((∃ e w', result = .error e ∧ w.Advances w' octets m.tree m'.tree)
      ∨ result = .ok () ∧ w.IsDelivered octets m.tree m'.tree)
  := by
  obtain ⟨result, w₁, m₁, hflush, hadvances, hempty⟩ := exists_flush h
  rw [ArtifactDirectory.store, run_bind_eq hflush]
  rcases result with e | ⟨⟩
  · obtain ⟨w', m', hrelease, hadvances'⟩ := exists_release hadvances.isOpen
    use .error e, m'
    dsimp only
    rw [run_bind_eq hrelease]
    exact ⟨rfl, .inl ⟨e, w', rfl, hadvances.trans hadvances'⟩⟩
  · obtain ⟨result, m₂, hsync, htree⟩ := Machine.exists_sync w₁.file m₁
    dsimp only
    rw [run_bind_eq hsync]
    rw [← htree] at hadvances
    rcases result with e | ⟨⟩
    · exact ⟨.error e, m₂, rfl, .inl ⟨e, w₁, rfl, hadvances⟩⟩
    · dsimp only
      obtain ⟨stored, hpath, -, hstored⟩ := hadvances.isOpen.exists_stored
      rw [hempty rfl, List.append_nil] at hstored
      have hplaces : m₂.tree.placeOf w₁.partialPath ≠ m₂.tree.placeOf w₁.target := by
        rwa [hadvances.partialPath_eq, hadvances.target_eq, hadvances.changes.placeOf_eq,
          hadvances.changes.placeOf_eq]
      obtain ⟨result, m', hrename, ⟨e, rfl, htree'⟩ | ⟨rfl, hchanges, hgone, hread⟩⟩ :=
        Machine.exists_rename hadvances.isOpen.wellFormed hpath hplaces
      · refine ⟨.error e, m', hrename, .inl ⟨e, w₁, rfl, ?_⟩⟩
        rw [htree']
        exact hadvances
      · rw [hstored] at hread
        exact ⟨.ok (), m', hrename, .inr ⟨rfl, hadvances.delivered ⟨hchanges, hgone, hread⟩⟩⟩

/-- A commit delivers all octets to the target, or drops the partial file. -/
theorem exists_commit (h : w.IsOpen octets m.tree)
    (hne : m.tree.placeOf w.partialPath ≠ m.tree.placeOf w.target) :
  ∃ result m', (ArtifactDirectory.commit Machine.system w).run m = (result, m')
    ∧ ((∃ e, result = .error e ∧ w.IsDropped m.tree m'.tree)
      ∨ result = .ok () ∧ w.IsDelivered octets m.tree m'.tree)
  := by
  obtain ⟨result, m₁, hstore, ⟨e, w', rfl, hadvances⟩ | ⟨rfl, hdelivered⟩⟩ := exists_store h hne
  · obtain ⟨m', hremove, hdropped⟩ := exists_remove hadvances.isOpen
    rw [hadvances.partialPath_eq] at hremove
    use .error e, m'
    rw [ArtifactDirectory.commit, run_bind_eq hstore]
    dsimp only
    rw [run_bind_eq hremove]
    exact ⟨rfl, .inl ⟨e, rfl, hadvances.dropped hdropped⟩⟩
  · use .ok (), m₁
    rw [ArtifactDirectory.commit, run_bind_eq hstore]
    exact ⟨rfl, .inr ⟨rfl, hdelivered⟩⟩

theorem exists_discard (h : w.IsOpen octets m.tree) :
  ∃ m', (ArtifactDirectory.discard Machine.system w).run m = ((), m')
    ∧ w.IsDropped m.tree m'.tree
  := by
  obtain ⟨w', m₁, hrelease, hadvances⟩ := exists_release h
  obtain ⟨m', hremove, hdropped⟩ := exists_remove hadvances.isOpen
  rw [hadvances.partialPath_eq] at hremove
  use m'
  rw [ArtifactDirectory.discard, run_bind_eq hrelease, run_bind_eq hremove]
  exact ⟨rfl, hadvances.dropped hdropped⟩

end PartialFile

/-! ### Sinks -/

namespace ArtifactDirectory

variable {m : Machine} {w : PartialFile OpenFile} {octets : List UInt8}

/-- An artifact is acquired with an empty partial file, or no file changes. -/
theorem exists_acquire (ht : m.tree.WellFormed) (d : ArtifactDirectory) (artifact : Text) :
  ∃ result m', (acquire Machine.system d artifact).run m = (result, m')
    ∧ ((∃ e, result = .error e ∧ Changes (fun _ => False) m.tree m'.tree)
      ∨ ∃ w, result = .ok w ∧ w.partialPath = d.partialPathOf artifact
        ∧ w.target = d.pathOf artifact
        ∧ Changes (· = d.partialPlace m.tree artifact) m.tree m'.tree ∧ w.IsOpen [] m'.tree)
  := by
  obtain ⟨result, m₁, hdirs, hchanges⟩ :=
    Machine.exists_createDirAll ht (d.partialPathOf artifact).parent
  rw [acquire, run_bind_eq hdirs]
  rcases result with e | ⟨⟩
  · exact ⟨.error e, m₁, rfl, .inl ⟨e, rfl, hchanges⟩⟩
  · dsimp only
    obtain ⟨result, m', hcreate, ⟨e, rfl, htree⟩ | ⟨file, rfl, hcreated, hempty, hoffset⟩⟩ :=
      Machine.exists_create hchanges.wellFormed (d.partialPathOf artifact)
    · rw [run_bind_eq hcreate]
      refine ⟨.error e, m', rfl, .inl ⟨e, rfl, ?_⟩⟩
      rw [htree]
      exact hchanges
    · rw [run_bind_eq hcreate]
      refine ⟨.ok _, m', rfl, .inr ⟨_, rfl, rfl, rfl, ?_, hcreated.wellFormed, [], hempty, hoffset,
        rfl⟩⟩
      rw [partialPlace, ← hchanges.placeOf_eq]
      apply (hchanges.mono fun _ => False.elim).trans hcreated

/-- One write of the sink gives a partial file the octets that it takes. -/
theorem exists_sinkWrite (h : w.IsOpen octets m.tree) (d : ArtifactDirectory) (chunk : List UInt8) :
  ∃ result w' m', ((d.sink Machine.system).write w chunk).run m = ((result, w'), m')
    ∧ w.Advances w' (octets ++ PartialFile.takenOf result) m.tree m'.tree
  := by
  obtain ⟨result, w', m', hrun, hadvances⟩ := PartialFile.exists_write h chunk
  use causeOf result, w', m'
  have hwrite : ((d.sink Machine.system).write w chunk).run m = ((causeOf result, w'), m') := by
    rw [sink]
    dsimp only
    rw [run_bind_eq hrun]
    rfl
  refine ⟨hwrite, ?_⟩
  cases result <;> exact hadvances

/-- Writing a chunk gives a partial file the whole chunk, unless it fails. -/
theorem exists_writeAll (h : w.IsOpen octets m.tree) (d : ArtifactDirectory) (chunk : List UInt8) :
  ∃ result w' m' octets',
    (writeAll (d.sink Machine.system).write w chunk).run m = ((result, w'), m')
      ∧ w.Advances w' octets' m.tree m'.tree ∧ (result = .ok () → octets' = octets ++ chunk)
  := by
  induction w, chunk using writeAll.induct generalizing m octets with
  | case1 w =>
    use .ok (), w, m, octets
    rw [writeAll, List.append_nil]
    exact ⟨rfl, .refl h, fun _ => rfl⟩
  | case2 w b rest ih =>
    obtain ⟨result, w₁, m₁, hrun, hadvances⟩ := exists_sinkWrite h d (b :: rest)
    rw [writeAll, run_bind_eq hrun]
    rcases result with cause | n
    · refine ⟨.error cause, w₁, m₁, _, rfl, hadvances, ?_⟩
      rintro ⟨⟩
    · obtain ⟨result, w', m', octets', hrun', hadvances', hresult⟩ := ih n w₁ hadvances.isOpen
      refine ⟨result, w', m', octets', hrun', hadvances.trans hadvances', ?_⟩
      intro hok
      rw [hresult hok, PartialFile.takenOf_ok, List.append_assoc, List.take_append_drop]

theorem exists_writeChunks (h : w.IsOpen octets m.tree) (d : ArtifactDirectory)
    (chunks : List (List UInt8)) :
  ∃ result w' m' octets',
    (writeChunks (d.sink Machine.system).write w chunks).run m = ((result, w'), m')
      ∧ w.Advances w' octets' m.tree m'.tree
      ∧ (result = .ok () → octets' = octets ++ chunks.flatten)
  := by
  induction chunks generalizing w m octets with
  | nil =>
    use .ok (), w, m, octets
    rw [writeChunks, List.flatten_nil, List.append_nil]
    exact ⟨rfl, .refl h, fun _ => rfl⟩
  | cons chunk chunks ih =>
    obtain ⟨result, w₁, m₁, octets₁, hrun, hadvances, hresult⟩ := exists_writeAll h d chunk
    rw [writeChunks, run_bind_eq hrun]
    rcases result with cause | ⟨⟩
    · refine ⟨.error cause, w₁, m₁, octets₁, rfl, hadvances, ?_⟩
      rintro ⟨⟩
    · obtain ⟨result, w', m', octets', hrun', hadvances', hresult'⟩ := ih hadvances.isOpen
      refine ⟨result, w', m', octets', hrun', hadvances.trans hadvances', ?_⟩
      intro hok
      rw [hresult' hok, hresult rfl, List.flatten_cons, List.append_assoc]

/-! ### Publication -/

/-- What a publication does to the files of a tree, by its outcome. -/
inductive IsPublication (d : ArtifactDirectory) (artifact : Text) (octets : List UInt8)
    (t t' : FileTree) : Except SinkError Unit → Prop
  /-- The target has all octets, and there is no partial file. -/
  | delivered
      (changes : Changes
        (fun place => place = d.partialPlace t artifact ∨ place = d.targetPlace t artifact) t t')
      (gone : t'.octetsAt? (d.partialPlace t artifact) = none)
      (read : t'.read (d.pathOf artifact) = .ok octets) :
      IsPublication d artifact octets t t' (.ok ())
  /-- There was no partial file to begin with. -/
  | refused (cause : Text) (changes : Changes (fun _ => False) t t') :
      IsPublication d artifact octets t t' (.error ⟨.create, artifact, cause⟩)
  /-- There is no partial file any more. -/
  | dropped (stage : Stage) (cause : Text) (hstage : stage ≠ .create)
      (changes : Changes (· = d.partialPlace t artifact) t t')
      (gone : t'.octetsAt? (d.partialPlace t artifact) = none) :
      IsPublication d artifact octets t t' (.error ⟨stage, artifact, cause⟩)

/-- Whether a publication got a partial file. -/
def WasAcquired (outcome : Except SinkError Unit) : Prop :=
  ∀ e, outcome = .error e → e.stage ≠ .create

namespace IsPublication

variable {d : ArtifactDirectory} {artifact : Text} {t t' : FileTree}
  {outcome : Except SinkError Unit}

theorem artifact_eq (h : d.IsPublication artifact octets t t' outcome) {e : SinkError}
    (he : outcome = .error e) :
  e.artifact = artifact
  := by
  cases h with
  | delivered => cases he
  | refused | dropped =>
    cases he
    rfl

/-- A publication changes no file but its partial file and, if it succeeds, its target. -/
theorem changes (h : d.IsPublication artifact octets t t' outcome) :
  Changes (fun place => WasAcquired outcome ∧ place = d.partialPlace t artifact
    ∨ outcome = .ok () ∧ place = d.targetPlace t artifact) t t'
  := by
  cases h with
  | delivered hchanges =>
    apply hchanges.mono
    rintro place (hplace | hplace)
    · refine .inl ⟨?_, hplace⟩
      rintro e ⟨⟩
    · exact .inr ⟨rfl, hplace⟩
  | refused cause hchanges => exact hchanges.mono fun _ => False.elim
  | dropped stage cause hstage hchanges =>
    apply hchanges.mono
    intro place hplace
    refine .inl ⟨?_, hplace⟩
    rintro e ⟨⟩
    exact hstage

theorem octetsAt?_eq_none (h : d.IsPublication artifact octets t t' outcome)
    (hacquired : WasAcquired outcome) :
  t'.octetsAt? (d.partialPlace t artifact) = none
  := by
  cases h with
  | delivered _ hgone => exact hgone
  | refused cause => exact absurd rfl (hacquired _ rfl)
  | dropped _ _ _ _ hgone => exact hgone

theorem read_eq (h : d.IsPublication artifact octets t t' outcome) (hok : outcome = .ok ()) :
  t'.read (d.pathOf artifact) = .ok octets
  := by
  cases h with
  | delivered _ _ hread => exact hread
  | refused | dropped => cases hok

end IsPublication

/-- A publication delivers the whole artifact or leaves the target as it is. -/
theorem exists_publish (ht : m.tree.WellFormed) (d : ArtifactDirectory) (artifact : Text)
    (chunks : List (List UInt8)) :
  ∃ result m', ((d.sink Machine.system).publish artifact chunks).run m = (result, m')
    ∧ d.IsPublication artifact chunks.flatten m.tree m'.tree result
  := by
  obtain ⟨result, m₁, hacquire, hresult⟩ := exists_acquire ht d artifact
  have hopen : ((d.sink Machine.system).acquire artifact).run m = (causeOf result, m₁) := by
    rw [sink]
    dsimp only
    rw [run_bind_eq hacquire]
    rfl
  rw [Sink.publish, run_bind_eq hopen]
  obtain ⟨e, rfl, hchanges⟩ | ⟨w, rfl, hpartial, htarget, hchanges, hempty⟩ := hresult
  · exact ⟨_, m₁, rfl, .refused _ hchanges⟩
  · obtain ⟨result, w₁, m₂, octets, hwrite, hadvances, hwhole⟩ :=
      exists_writeChunks hempty d chunks
    have hplace : m₁.tree.placeOf w.partialPath = d.partialPlace m.tree artifact := by
      rw [hpartial, hchanges.placeOf_eq]
      rfl
    have hplace' : m₁.tree.placeOf w.target = d.targetPlace m.tree artifact := by
      rw [htarget, hchanges.placeOf_eq]
      rfl
    -- once the partial file is there, whatever drops it ends the publication
    have hend : ∀ {stage cause t'}, stage ≠ .create → w.IsDropped m₁.tree t' →
        d.IsPublication artifact chunks.flatten m.tree t' (.error ⟨stage, artifact, cause⟩) := by
      rintro stage cause t' hstage ⟨hdropped, hgone⟩
      rw [hplace] at hdropped hgone
      exact .dropped stage cause hstage (hchanges.trans hdropped) hgone
    dsimp only [causeOf]
    rw [run_bind_eq hwrite]
    rcases result with cause | ⟨⟩
    · obtain ⟨m', hdiscard, hdropped⟩ := PartialFile.exists_discard hadvances.isOpen
      have hclose : ((d.sink Machine.system).discard artifact w₁).run m₂ = ((), m') := hdiscard
      dsimp only
      rw [run_bind_eq hclose]
      refine ⟨.error ⟨.write, artifact, cause⟩, m', rfl, hend ?_ (hadvances.dropped hdropped)⟩
      rintro ⟨⟩
    · obtain rfl := hwhole rfl
      have hne : m₂.tree.placeOf w₁.partialPath ≠ m₂.tree.placeOf w₁.target := by
        rw [hadvances.partialPath_eq, hadvances.target_eq, hadvances.changes.placeOf_eq,
          hadvances.changes.placeOf_eq, hplace, hplace']
        apply (d.targetPlace_ne_partialPlace m.tree artifact artifact).symm
      obtain ⟨result, m', hcommit, hresult⟩ := PartialFile.exists_commit hadvances.isOpen hne
      have hclose : ((d.sink Machine.system).commit artifact w₁).run m₂ = (causeOf result, m') := by
        rw [sink]
        dsimp only
        rw [run_bind_eq hcommit]
        rfl
      dsimp only
      rw [run_bind_eq hclose]
      obtain ⟨e, rfl, hdropped⟩ | ⟨rfl, hdelivered⟩ := hresult
      · refine ⟨.error ⟨.commit, artifact, e.message⟩, m', rfl,
          hend ?_ (hadvances.dropped hdropped)⟩
        rintro ⟨⟩
      · obtain ⟨hdelivers, hgone, hread⟩ := hadvances.delivered hdelivered
        rw [hplace, hplace'] at hdelivers
        rw [hplace] at hgone
        rw [htarget] at hread
        refine ⟨.ok (), m', rfl, .delivered ?_ hgone hread⟩
        apply (hchanges.mono fun _ => Or.inl).trans hdelivers

end ArtifactDirectory

end InstanceState
