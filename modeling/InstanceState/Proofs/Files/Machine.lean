import InstanceState.Proofs.Files.Operations

/-!
# Machines that fail

A machine is a file system in which any operation on a tree may fail: making directories, creating
a file, writing to it, storing it and renaming it.  What becomes of the operations is told in
advance, in the order in which they are run.  A failure leaves the tree as it is, except that some
of the directories may have been made, and a write may take only the beginning of a chunk.
-/

namespace InstanceState

/-- What becomes of one operation. -/
inductive Fate where
  /-- It is as the tree has it. -/
  | done
  /-- So it is, but a write takes no more than that many octets after the first. -/
  | short (extent : Nat)
  /-- It fails, and of the directories that it would make it makes those of so many names. -/
  | failed (cause : FileError) (extent : Nat)
deriving DecidableEq, Repr

/-- What a write takes from a chunk, or why it fails. -/
def Fate.accept (fate : Fate) (chunk : List UInt8) : Except FileError (Accepted chunk) :=
  match fate with
  | .done => .ok (.whole chunk)
  | .short extent =>
    .ok ⟨min (extent + 1) chunk.length, Nat.min_le_right _ _, fun h =>
      Nat.lt_min.2 ⟨Nat.succ_pos extent, List.length_pos_iff.2 h⟩⟩
  | .failed cause _ => .error cause

/-- A tree, and what becomes of the operations that are still to be run on it. -/
structure Machine where
  tree : FileTree
  fates : Nat → Fate := fun _ => .done

namespace Machine

/-- The machine with another tree, after one more operation. -/
def after (m : Machine) (t : FileTree) : Machine where
  tree := t
  fates n := m.fates (n + 1)

/-- Runs an operation that changes the tree only if it succeeds. -/
def attempt {α : Type} (f : FileTree → Except FileError (α × FileTree)) :
    StateM Machine (Except FileError α) := fun m =>
  match m.fates 0, f m.tree with
  | .failed cause _, _ => (.error cause, m.after m.tree)
  | _, .ok (a, t) => (.ok a, m.after t)
  | _, .error e => (.error e, m.after m.tree)

/-- The file system of a machine.  Reading and removing a file fail only where the tree has it. -/
def system : FileSystem (StateM Machine) OpenFile where
  read path := fun m => (m.tree.read path, m)
  createDirAll path := fun m =>
    match m.fates 0 with
    | .failed cause extent =>
      (.error cause,
        m.after (m.tree.makeDirs (m.tree.start path) (path.names.take extent)).2)
    | _ => ((m.tree.createDirAll path).1, m.after (m.tree.createDirAll path).2)
  create path := attempt fun t => t.create path
  write file chunk := fun m =>
    match (m.fates 0).accept chunk with
    | .error cause => ((.error cause, file), m.after m.tree)
    | .ok n =>
      ((.ok n, (m.tree.write file (chunk.take n.val)).1),
        m.after (m.tree.write file (chunk.take n.val)).2)
  sync _ := attempt fun t => .ok ((), t)
  rename source target := attempt fun t => (t.rename source target).map ((), ·)
  remove path := fun m =>
    match m.tree.remove path with
    | .ok t => (.ok (), { m with tree := t })
    | .error e => (.error e, m)

variable {m : Machine}

/-! ### Operations -/

open FileTree (Changes)

/-- An operation that changes the tree only if it succeeds leaves it as it is, or succeeds as on the
tree. -/
theorem exists_attempt {α : Type} (f : FileTree → Except FileError (α × FileTree)) (m : Machine) :
  ∃ result m', (attempt f).run m = (result, m')
    ∧ ((∃ e, result = .error e ∧ m'.tree = m.tree)
      ∨ ∃ a, result = .ok a ∧ f m.tree = .ok (a, m'.tree))
  := by
  use ((attempt f).run m).1, ((attempt f).run m).2, rfl
  rw [StateT.run, attempt]
  split
  · exact .inl ⟨_, rfl, rfl⟩
  · rename_i hok _
    exact .inr ⟨_, rfl, hok⟩
  · exact .inl ⟨_, rfl, rfl⟩

/-- Making directories changes no file, whether it fails or not. -/
theorem exists_createDirAll (ht : m.tree.WellFormed) (path : Path) :
  ∃ result m', (system.createDirAll path).run m = (result, m')
    ∧ Changes (fun _ => False) m.tree m'.tree
  := by
  use ((system.createDirAll path).run m).1, ((system.createDirAll path).run m).2, rfl
  rw [StateT.run, system]
  dsimp only
  split
  · apply FileTree.changes_makeDirs ht (FileTree.find?_start ht path)
  · apply FileTree.changes_createDirAll ht

theorem exists_create (ht : m.tree.WellFormed) (path : Path) :
  ∃ result m', (system.create path).run m = (result, m')
    ∧ ((∃ e, result = .error e ∧ m'.tree = m.tree)
      ∨ ∃ file, result = .ok file ∧ Changes (· = m.tree.placeOf path) m.tree m'.tree
        ∧ m'.tree.LeadsTo path file.number [] ∧ file.offset = 0)
  := by
  obtain ⟨result, m', hrun, hresult⟩ := exists_attempt (fun t => t.create path) m
  refine ⟨result, m', hrun, hresult.imp_right ?_⟩
  rintro ⟨file, hfile, hcreate⟩
  exact ⟨file, hfile, FileTree.changes_create ht hcreate⟩

/-- A write at the end of a file puts after its octets those that it takes. -/
theorem exists_write (ht : m.tree.WellFormed) {path : Path} {file : OpenFile}
    {octets : List UInt8} (hpath : m.tree.LeadsTo path file.number octets)
    (hoffset : file.offset = octets.length) (chunk : List UInt8) :
  ∃ result file' m', (system.write file chunk).run m = ((result, file'), m')
    ∧ ((∃ e, result = .error e ∧ file' = file ∧ m'.tree = m.tree)
      ∨ ∃ n, result = .ok n ∧ Changes (· = m.tree.placeOf path) m.tree m'.tree
        ∧ m'.tree.LeadsTo path file'.number (octets ++ chunk.take n.val)
        ∧ file'.offset = (octets ++ chunk.take n.val).length)
  := by
  cases haccept : (m.fates 0).accept chunk with
  | error e =>
    use .error e, file, m.after m.tree
    rw [StateT.run, system]
    dsimp only
    rw [haccept]
    exact ⟨rfl, .inl ⟨e, rfl, rfl, rfl⟩⟩
  | ok n =>
    use .ok n, (m.tree.write file (chunk.take n.val)).1,
      m.after (m.tree.write file (chunk.take n.val)).2
    rw [StateT.run, system]
    dsimp only
    rw [haccept]
    exact ⟨rfl, .inr ⟨n, rfl, FileTree.changes_write ht hpath hoffset _⟩⟩

theorem exists_sync (file : OpenFile) (m : Machine) :
  ∃ result m', (system.sync file).run m = (result, m') ∧ m'.tree = m.tree
  := by
  obtain ⟨result, m', hrun, ⟨e, -, htree⟩ | ⟨a, -, hsync⟩⟩ :=
    exists_attempt (fun t => .ok ((), t)) m
  · exact ⟨result, m', hrun, htree⟩
  · exact ⟨result, m', hrun, (congrArg Prod.snd (Except.ok.inj hsync)).symm⟩

/-- A rename of a file puts it at the place of the target, or leaves the tree as it is. -/
theorem exists_rename (ht : m.tree.WellFormed) {source target : Path} {number : Nat}
    {octets : List UInt8} (hsource : m.tree.LeadsTo source number octets)
    (hne : m.tree.placeOf source ≠ m.tree.placeOf target) :
  ∃ result m', (system.rename source target).run m = (result, m')
    ∧ ((∃ e, result = .error e ∧ m'.tree = m.tree)
      ∨ result = .ok ()
        ∧ Changes (fun place => place = m.tree.placeOf source ∨ place = m.tree.placeOf target)
          m.tree m'.tree
        ∧ m'.tree.octetsAt? (m.tree.placeOf source) = none
        ∧ m'.tree.read target = .ok octets)
  := by
  obtain ⟨result, m', hrun, hresult⟩ :=
    exists_attempt (fun t => (t.rename source target).map ((), ·)) m
  refine ⟨result, m', hrun, hresult.imp_right ?_⟩
  rintro ⟨⟨⟩, hok, hrename⟩
  cases hmoved : m.tree.rename source target with
  | error e =>
    rw [hmoved] at hrename
    cases hrename
  | ok t =>
    rw [hmoved] at hrename
    cases hrename
    obtain ⟨hchanges, hgone, htarget⟩ :=
      FileTree.changes_rename ht hmoved hsource.fileAt?_eq hne
    refine ⟨hok, hchanges, ?_, FileTree.read_eq_ok_iff.2 ⟨number, htarget⟩⟩
    rw [FileTree.octetsAt?, hgone]
    rfl

/-- The file of a path that leads to one is removed. -/
theorem exists_remove (ht : m.tree.WellFormed) {path : Path} {number : Nat} {octets : List UInt8}
    (hpath : m.tree.LeadsTo path number octets) :
  ∃ m', (system.remove path).run m = (.ok (), m')
    ∧ Changes (· = m.tree.placeOf path) m.tree m'.tree
    ∧ m'.tree.octetsAt? (m.tree.placeOf path) = none
  := by
  obtain ⟨t, hremove, hchanges, hgone⟩ := FileTree.exists_remove ht hpath
  use { m with tree := t }
  rw [StateT.run, system]
  dsimp only
  rw [hremove, FileTree.octetsAt?, hgone]
  exact ⟨rfl, hchanges, rfl⟩

end Machine

end InstanceState
