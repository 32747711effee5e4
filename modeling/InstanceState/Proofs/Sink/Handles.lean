import InstanceState.Proofs.Sink.Delivery
import Mathlib.Data.List.ReduceOption

/-!
# Handles

Any number of partial files of one directory that are open at a time, on a machine that may fail.
As long as no two of them are at one place, every target has what was given to the partial file that
was last committed to it, or what it had at the beginning.  Two partial files at one place are one
file: what is written through one of them after the other was committed shows in the target.
-/

namespace InstanceState

open FileTree (Changes)

/-! ### Handles -/

/-- A partial file that is open, and the octets that it took. -/
structure Handle where
  file : PartialFile OpenFile
  octets : List UInt8 := []

/-- The octets that a place has after some commits, the last one first: those of the last commit to
it, or those that it has in the tree. -/
def contentAt (t : FileTree) (commits : List (Path × List UInt8)) (place : Place) :
    Option (List UInt8) :=
  match commits.find? fun c => t.placeOf c.1 = place with
  | some c => some c.2
  | none => t.octetsAt? place

/-- Commits to what earlier commits have left. -/
theorem contentAt_append {t t' : FileTree} (hplaceOf : ∀ path, t'.placeOf path = t.placeOf path)
    {commits : List (Path × List UInt8)} {place : Place}
    (h : t'.octetsAt? place = contentAt t commits place) (delivered : List (Path × List UInt8)) :
  contentAt t' delivered place = contentAt t (delivered ++ commits) place
  := by
  simp only [contentAt, hplaceOf, List.find?_append]
  cases delivered.find? fun c => t.placeOf c.1 = place with
  | some c => rfl
  | none => exact h

namespace Handle

variable {d : ArtifactDirectory} {h h' : Handle} {t t' : FileTree} {handle : Option Handle}
  {delivered : List (Path × List UInt8)} {m : Machine}

/-- Whether a handle is that of an open partial file for an artifact of a directory. -/
structure IsOpen (d : ArtifactDirectory) (h : Handle) (t : FileTree) : Prop where
  file : h.file.IsOpen h.octets t
  exists_artifact : ∃ artifact,
    h.file.partialPath = d.partialPathOf artifact ∧ h.file.target = d.pathOf artifact

/-- No target is where the partial file of a handle is. -/
theorem IsOpen.targetPlace_ne (ho : h.IsOpen d t) (artifact : Text) :
  d.targetPlace t artifact ≠ t.placeOf h.file.partialPath
  := by
  obtain ⟨artifact', hpartial, -⟩ := ho.exists_artifact
  rw [hpartial]
  apply d.targetPlace_ne_partialPlace

theorem IsOpen.of_changes {touched : Place → Prop} (ho : h.IsOpen d t)
    (hchanges : Changes touched t t') (hplace : ¬ touched (t.placeOf h.file.partialPath)) :
  h.IsOpen d t'
  := ⟨ho.file.of_changes hchanges hplace, ho.exists_artifact⟩

/-- What an operation on a handle leaves of it, what it commits, and what it does to the tree. -/
inductive Continues (h : Handle) (t t' : FileTree) :
    Option Handle → List (Path × List UInt8) → Prop
  /-- It stays open, with more octets or as it was. -/
  | advanced {file octets} (hfile : h.file.Advances file octets t t') :
      Continues h t t' (some ⟨file, octets⟩) []
  /-- It is closed and nothing is committed. -/
  | dropped (hfile : h.file.IsDropped t t') : Continues h t t' none []
  /-- It is closed and what it took is committed. -/
  | delivered (hfile : h.file.IsDelivered h.octets t t') :
      Continues h t t' none [(h.file.target, h.octets)]

namespace Continues

theorem changes (hc : h.Continues t t' handle delivered) :
  Changes (fun place => place = t.placeOf h.file.partialPath ∨ place = t.placeOf h.file.target) t t'
  := by
  cases hc with
  | advanced hfile => exact hfile.changes.mono fun _ => Or.inl
  | dropped hfile => exact hfile.changes.mono fun _ => Or.inl
  | delivered hfile => exact hfile.changes

theorem isOpen (hc : h.Continues t t' (some h') delivered) (ho : h.IsOpen d t) :
  h'.IsOpen d t' ∧ h'.file.partialPath = h.file.partialPath
  := by
  cases hc with
  | advanced hfile =>
    refine ⟨⟨hfile.isOpen, ?_⟩, hfile.partialPath_eq⟩
    rw [hfile.partialPath_eq, hfile.target_eq]
    exact ho.exists_artifact

/-- The targets change by what is committed, and not otherwise. -/
theorem octetsAt?_eq (hc : h.Continues t t' handle delivered) (ho : h.IsOpen d t)
    (artifact : Text) :
  t'.octetsAt? (d.targetPlace t artifact) = contentAt t delivered (d.targetPlace t artifact)
  := by
  cases hc with
  | advanced hfile => apply hfile.changes.octetsAt?_eq (ho.targetPlace_ne artifact)
  | dropped hfile => apply hfile.changes.octetsAt?_eq (ho.targetPlace_ne artifact)
  | delivered hfile =>
    rw [contentAt, List.find?_singleton]
    by_cases htarget : t.placeOf h.file.target = d.targetPlace t artifact
    · rw [if_pos (decide_eq_true htarget), ← htarget, ← hfile.changes.placeOf_eq]
      apply FileTree.octetsAt?_of_read_eq hfile.read_eq
    · rw [if_neg (by simpa using htarget)]
      apply hfile.changes.octetsAt?_eq
      rintro (hplace | hplace)
      · exact ho.targetPlace_ne artifact hplace
      · exact htarget hplace.symm

end Continues

end Handle

/-! ### Steps -/

/-- One step.  Handles are numbered in the order in which they are asked for. -/
inductive HandleStep where
  | acquire (artifact : Text)
  | write (handle : Nat) (chunk : List UInt8)
  | flush (handle : Nat)
  | commit (handle : Nat)
  | discard (handle : Nat)
deriving DecidableEq, Repr

/-- A machine, the handles that were asked for, and the commits that succeeded. -/
structure Bench where
  machine : Machine
  /-- A handle that was refused or is closed is missing. -/
  handles : List (Option Handle) := []
  /-- The targets of the commits with what was committed, the last one first. -/
  commits : List (Path × List UInt8) := []

namespace Bench

variable {d : ArtifactDirectory} {b : Bench} {t : FileTree}

/-- The directories and files at a time. -/
def tree (b : Bench) : FileTree := b.machine.tree

/-- The handle of a number, if it is open. -/
def handle? (b : Bench) (i : Nat) : Option Handle := b.handles[i]?.join

/-- A handle for an artifact, if the artifact can be acquired. -/
def acquire (d : ArtifactDirectory) (b : Bench) (artifact : Text) : Bench :=
  let (result, machine) :=
    (ArtifactDirectory.acquire Machine.system d artifact).run b.machine
  { b with machine, handles := b.handles ++ [result.toOption.map fun file => { file }] }

/-- An operation on an open handle, which leaves something of the handle and commits something. -/
def on (b : Bench) (i : Nat)
    (f : Handle → StateM Machine (Option Handle × List (Path × List UInt8))) : Bench :=
  match b.handle? i with
  | none => b
  | some h =>
    let ((handle, delivered), machine) := (f h).run b.machine
    { machine, handles := b.handles.set i handle, commits := delivered ++ b.commits }

/-- One step.  A step with a handle that is not open does nothing. -/
def step (d : ArtifactDirectory) (b : Bench) : HandleStep → Bench
  | .acquire artifact => b.acquire d artifact
  | .write i chunk => b.on i fun h => do
    let (result, file) ← h.file.write Machine.system chunk
    return (some ⟨file, h.octets ++ PartialFile.takenOf result⟩, [])
  | .flush i => b.on i fun h => do
    let (_, file) ← h.file.flush Machine.system
    return (some ⟨file, h.octets⟩, [])
  | .commit i => b.on i fun h => do
    match ← ArtifactDirectory.commit Machine.system h.file with
    | .ok () => return (none, [(h.file.target, h.octets)])
    | .error _ => return (none, [])
  | .discard i => b.on i fun h => do
    ArtifactDirectory.discard Machine.system h.file
    return (none, [])

/-- Steps in turn. -/
def run (d : ArtifactDirectory) (b : Bench) (steps : List HandleStep) : Bench :=
  steps.foldl (step d) b

/-- Whether a step acquires no partial file at a place where there is an open one. -/
def IsExclusive (d : ArtifactDirectory) (b : Bench) : HandleStep → Prop
  | .acquire artifact => ∀ h ∈ b.handles.reduceOption,
    b.tree.placeOf h.file.partialPath ≠ d.partialPlace b.tree artifact
  | _ => True

instance (d : ArtifactDirectory) (b : Bench) :
    (s : HandleStep) → Decidable (IsExclusive d b s)
  | .acquire artifact => inferInstanceAs (Decidable (∀ h ∈ b.handles.reduceOption,
      b.tree.placeOf h.file.partialPath ≠ d.partialPlace b.tree artifact))
  | .write _ _ | .flush _ | .commit _ | .discard _ => inferInstanceAs (Decidable True)

/-- Whether no step of a run acquires a partial file at a place where there is an open one. -/
def IsExclusiveRun (d : ArtifactDirectory) (b : Bench) : List HandleStep → Prop
  | [] => True
  | s :: steps => b.IsExclusive d s ∧ (b.step d s).IsExclusiveRun d steps

instance decidableIsExclusiveRun (d : ArtifactDirectory) (b : Bench) :
    (steps : List HandleStep) → Decidable (IsExclusiveRun d b steps)
  | [] => inferInstanceAs (Decidable True)
  | s :: steps =>
    have := decidableIsExclusiveRun d (b.step d s) steps
    inferInstanceAs (Decidable (b.IsExclusive d s ∧ (b.step d s).IsExclusiveRun d steps))

/-! ### Handles by number -/

/-- After a handle is replaced, each handle is the new one or one of the others. -/
theorem handle?_of_set {b b' : Bench} {k i : Nat} {h₀ h : Handle} {handle : Option Handle}
    (hset : b'.handles = b.handles.set k handle) (hk : b.handle? k = some h₀)
    (hi : b'.handle? i = some h) :
  i = k ∧ handle = some h ∨ i ≠ k ∧ b.handle? i = some h
  := by
  rw [handle?, hset, List.getElem?_set] at hi
  by_cases hik : i = k
  · left
    rw [if_pos hik.symm] at hi
    split_ifs at hi with hlength
    · exact ⟨hik, hi⟩
    · rw [handle?, List.getElem?_eq_none (Nat.le_of_not_lt hlength)] at hk
      cases hk
  · right
    rw [if_neg (Ne.symm hik)] at hi
    exact ⟨hik, hi⟩

/-- After a handle is added, each handle is the new one or one of the others. -/
theorem handle?_of_append {b b' : Bench} {i : Nat} {h : Handle} {handle : Option Handle}
    (happend : b'.handles = b.handles ++ [handle]) (hi : b'.handle? i = some h) :
  i = b.handles.length ∧ handle = some h ∨ i ≠ b.handles.length ∧ b.handle? i = some h
  := by
  rw [handle?, happend] at hi
  rcases Nat.lt_trichotomy i b.handles.length with hlt | rfl | hgt
  · rw [List.getElem?_append_left hlt] at hi
    exact .inr ⟨Nat.ne_of_lt hlt, hi⟩
  · rw [List.getElem?_concat_length] at hi
    exact .inl ⟨rfl, hi⟩
  · rw [List.getElem?_eq_none (by simp; omega)] at hi
    cases hi

theorem mem_reduceOption_of_handle? {i : Nat} {h : Handle} (hi : b.handle? i = some h) :
  h ∈ b.handles.reduceOption
  := by
  rw [handle?, Option.join_eq_some_iff] at hi
  rw [List.reduceOption_mem_iff]
  exact List.mem_of_getElem? hi

/-! ### Runs -/

/-- What the steps of a run keep, from a tree at the beginning. -/
structure IsIntact (d : ArtifactDirectory) (t : FileTree) (b : Bench) : Prop where
  wellFormed : b.tree.WellFormed
  placeOf_eq : ∀ path, b.tree.placeOf path = t.placeOf path
  isOpen : ∀ {i h}, b.handle? i = some h → h.IsOpen d b.tree
  ne_of_ne : ∀ {i j h h'}, b.handle? i = some h → b.handle? j = some h' → i ≠ j →
    t.placeOf h.file.partialPath ≠ t.placeOf h'.file.partialPath
  octetsAt?_eq : ∀ artifact,
    b.tree.octetsAt? (d.targetPlace t artifact)
      = contentAt t b.commits (d.targetPlace t artifact)

/-- A step that leaves the other handles and their files alone. -/
theorem IsIntact.next (hb : b.IsIntact d t) {b' : Bench} {k : Nat} {handle : Option Handle}
    {touched : Place → Prop}
    (hhandle : ∀ {i h}, b'.handle? i = some h →
      i = k ∧ handle = some h ∨ i ≠ k ∧ b.handle? i = some h)
    (hchanges : Changes touched b.tree b'.tree)
    (hopen : ∀ {h}, handle = some h → h.IsOpen d b'.tree)
    (hothers : ∀ {i h}, i ≠ k → b.handle? i = some h →
      ¬ touched (b.tree.placeOf h.file.partialPath)
        ∧ ∀ {h'}, handle = some h' →
          t.placeOf h.file.partialPath ≠ t.placeOf h'.file.partialPath)
    (hoctets : ∀ artifact,
      b'.tree.octetsAt? (d.targetPlace t artifact)
        = contentAt t b'.commits (d.targetPlace t artifact)) :
  b'.IsIntact d t
  where
  wellFormed := hchanges.wellFormed
  placeOf_eq path := (hchanges.placeOf_eq path).trans (hb.placeOf_eq path)
  isOpen hi := by
    rcases hhandle hi with ⟨-, hh⟩ | ⟨hne, hi⟩
    · exact hopen hh
    · apply (hb.isOpen hi).of_changes hchanges (hothers hne hi).1
  ne_of_ne hi hj hij := by
    rcases hhandle hi with ⟨rfl, hh⟩ | ⟨hne, hi⟩
    · rcases hhandle hj with ⟨rfl, -⟩ | ⟨hne', hj⟩
      · exact absurd rfl hij
      · exact ((hothers hne' hj).2 hh).symm
    · rcases hhandle hj with ⟨rfl, hh⟩ | ⟨-, hj⟩
      · exact (hothers hne hi).2 hh
      · exact hb.ne_of_ne hi hj hij
  octetsAt?_eq := hoctets

/-- An operation on a handle keeps all targets, but for what it commits. -/
theorem IsIntact.on (hb : b.IsIntact d t) (k : Nat)
    {f : Handle → StateM Machine (Option Handle × List (Path × List UInt8))}
    (hf : ∀ {h m}, h.IsOpen d m.tree → ∃ handle delivered m',
      (f h).run m = ((handle, delivered), m') ∧ h.Continues m.tree m'.tree handle delivered) :
  (b.on k f).IsIntact d t
  := by
  rw [Bench.on]
  split
  · exact hb
  · rename_i h hk
    have hopen := hb.isOpen hk
    obtain ⟨handle, delivered, m', hrun, hcontinues⟩ := hf hopen
    rw [hrun]
    dsimp only
    have hhandle {i h'} := @handle?_of_set b
      ⟨m', b.handles.set k handle, delivered ++ b.commits⟩ k i h h' handle rfl hk
    -- the operation touches the places of the handle, and those of no other handle
    apply hb.next hhandle hcontinues.changes
    · rintro h' rfl
      exact (hcontinues.isOpen hopen).1
    · intro i h' hne hi
      obtain ⟨artifact, -, htarget⟩ := hopen.exists_artifact
      constructor
      · rintro (hplace | hplace)
        · rw [← tree, hb.placeOf_eq, hb.placeOf_eq] at hplace
          exact hb.ne_of_ne hi hk hne hplace
        · rw [htarget] at hplace
          exact (hb.isOpen hi).targetPlace_ne artifact hplace.symm
      · rintro h'' rfl
        rw [(hcontinues.isOpen hopen).2]
        exact hb.ne_of_ne hi hk hne
    · intro artifact
      have hoctets := hcontinues.octetsAt?_eq hopen artifact
      rw [ArtifactDirectory.targetPlace, ← tree, hb.placeOf_eq] at hoctets
      apply hoctets.trans
      apply contentAt_append hb.placeOf_eq (hb.octetsAt?_eq artifact)

/-- Acquiring a partial file at a place where there is no open one keeps all targets. -/
theorem IsIntact.acquire (hb : b.IsIntact d t) {artifact : Text}
    (hexclusive : b.IsExclusive d (.acquire artifact)) :
  (b.acquire d artifact).IsIntact d t
  := by
  have hplace : ∀ artifact', d.targetPlace t artifact' = d.targetPlace b.tree artifact' :=
    fun artifact' => (hb.placeOf_eq _).symm
  obtain ⟨result, m', hrun, hresult⟩ :=
    ArtifactDirectory.exists_acquire hb.wellFormed d artifact
  rw [Bench.acquire, hrun]
  dsimp only
  obtain ⟨e, rfl, hchanges⟩ | ⟨w, rfl, hpartial, htarget, hchanges, hopen⟩ := hresult
  · have hhandle {i h} := @handle?_of_append b ⟨m', b.handles ++ [none], b.commits⟩ i h none rfl
    apply hb.next hhandle hchanges
    · rintro h ⟨⟩
    · intro i h _ _
      refine ⟨id, ?_⟩
      rintro h' ⟨⟩
    · intro artifact'
      rw [← hb.octetsAt?_eq]
      apply hchanges.octetsAt?_eq id
  · have hhandle {i h} := @handle?_of_append b ⟨m', b.handles ++ [some ⟨w, []⟩], b.commits⟩ i h
      (some ⟨w, []⟩) rfl
    apply hb.next hhandle hchanges
    · rintro h ⟨⟩
      exact ⟨hopen, artifact, hpartial, htarget⟩
    · intro i h _ hi
      have hne := hexclusive h (mem_reduceOption_of_handle? hi)
      refine ⟨hne, ?_⟩
      rintro h' ⟨⟩
      rwa [hpartial, ← hb.placeOf_eq, ← hb.placeOf_eq]
    · intro artifact'
      rw [← hb.octetsAt?_eq]
      apply hchanges.octetsAt?_eq
      rw [hplace]
      apply d.targetPlace_ne_partialPlace

/-- One step keeps all targets, but for what it commits. -/
theorem IsIntact.step (hb : b.IsIntact d t) {s : HandleStep} (hexclusive : b.IsExclusive d s) :
  (b.step d s).IsIntact d t
  := by
  cases s with
  | acquire artifact => exact hb.acquire hexclusive
  | write k chunk =>
    rw [Bench.step]
    apply hb.on k
    intro h m hopen
    obtain ⟨result, file, m', hrun, hadvances⟩ := PartialFile.exists_write hopen.file chunk
    refine ⟨_, _, m', ?_, .advanced hadvances⟩
    rw [run_bind_eq hrun]
    rfl
  | flush k =>
    rw [Bench.step]
    apply hb.on k
    intro h m hopen
    obtain ⟨result, file, m', hrun, hadvances, -⟩ := PartialFile.exists_flush hopen.file
    refine ⟨_, _, m', ?_, .advanced hadvances⟩
    rw [run_bind_eq hrun]
    rfl
  | commit k =>
    rw [Bench.step]
    apply hb.on k
    intro h m hopen
    obtain ⟨artifact, -, htarget⟩ := hopen.exists_artifact
    have hne : m.tree.placeOf h.file.partialPath ≠ m.tree.placeOf h.file.target := by
      rw [htarget]
      apply (hopen.targetPlace_ne artifact).symm
    obtain ⟨result, m', hrun, ⟨e, rfl, hdropped⟩ | ⟨rfl, hdelivered⟩⟩ :=
      PartialFile.exists_commit hopen.file hne
    · refine ⟨_, _, m', ?_, .dropped hdropped⟩
      rw [run_bind_eq hrun]
      rfl
    · refine ⟨_, _, m', ?_, .delivered hdelivered⟩
      rw [run_bind_eq hrun]
      rfl
  | discard k =>
    rw [Bench.step]
    apply hb.on k
    intro h m hopen
    obtain ⟨m', hrun, hdropped⟩ := PartialFile.exists_discard hopen.file
    refine ⟨_, _, m', ?_, .dropped hdropped⟩
    rw [run_bind_eq hrun]
    rfl

theorem IsIntact.run (hb : b.IsIntact d t) {steps : List HandleStep}
    (hexclusive : b.IsExclusiveRun d steps) (n : Nat) :
  (b.run d (steps.take n)).IsIntact d t
  := by
  induction steps generalizing b n with
  | nil =>
    rw [List.take_nil]
    exact hb
  | cons s steps ih =>
    obtain ⟨hstep, hsteps⟩ := hexclusive
    cases n with
    | zero => exact hb
    | succ n => exact ih (hb.step hstep) hsteps n

theorem isIntact_start (d : ArtifactDirectory) {m : Machine} (ht : m.tree.WellFormed) :
  IsIntact d m.tree { machine := m }
  where
  wellFormed := ht
  placeOf_eq _ := rfl
  isOpen hi := by
    cases hi
  ne_of_ne hi := by
    cases hi
  octetsAt?_eq _ := rfl

/-- Whatever is done with the handles of a directory, in any order and whichever operations of the
machine fail: if no partial file is acquired at a place where there is an open one, then at any time
each target has the octets of the last commit to it, or those that it had at the beginning, and a
step that commits nothing leaves all targets as they are. -/
theorem targets_have_last_commits (d : ArtifactDirectory) {m : Machine} (ht : m.tree.WellFormed)
    {steps : List HandleStep} (hexclusive : IsExclusiveRun d { machine := m } steps) (n : Nat)
    (artifact : Text) :
  (run d { machine := m } (steps.take n)).tree.octetsAt? (d.targetPlace m.tree artifact)
      = contentAt m.tree (run d { machine := m } (steps.take n)).commits
        (d.targetPlace m.tree artifact)
    ∧ ((run d { machine := m } (steps.take (n + 1))).commits
        = (run d { machine := m } (steps.take n)).commits →
      (run d { machine := m } (steps.take (n + 1))).tree.octetsAt? (d.targetPlace m.tree artifact)
        = (run d { machine := m } (steps.take n)).tree.octetsAt? (d.targetPlace m.tree artifact))
  := by
  have hintact := (isIntact_start d ht).run hexclusive
  refine ⟨(hintact n).octetsAt?_eq artifact, ?_⟩
  intro hcommits
  rw [(hintact n).octetsAt?_eq, (hintact (n + 1)).octetsAt?_eq, hcommits]

/-- Handles of two artifacts that are open at a time, one of which is acquired again. -/
def interleaved : List HandleStep :=
  [.acquire "a.Foo", .acquire "a.Bar", .write 0 [1, 2], .write 1 [3], .flush 0, .commit 1,
    .write 0 [4], .commit 0, .acquire "a.Foo", .write 2 [9], .discard 2]

/-- Two handles of one artifact that are open at a time. -/
def overlapping : List HandleStep :=
  [.acquire "a.Foo", .acquire "a.Foo", .write 0 [1, 2, 3], .write 1 [9], .commit 0, .commit 1]

/-- Handles of different artifacts leave each target as it was committed.  Of two handles of one
artifact the second writes to the target, once the first is committed, and its own commit fails. -/
theorem interleaved_targets_have_last_commits :
  FileTree.WellFormed {}
    ∧ IsExclusiveRun ⟨"out"⟩ { machine := { tree := {} } } interleaved
    ∧ (∀ artifact,
      (run ⟨"out"⟩ { machine := { tree := {} } } interleaved).tree.octetsAt?
          (ArtifactDirectory.targetPlace ⟨"out"⟩ {} artifact)
        = contentAt {} [(↑"out/a/Foo.java", [1, 2, 4]), (↑"out/a/Bar.java", [3])]
          (ArtifactDirectory.targetPlace ⟨"out"⟩ {} artifact))
    ∧ ¬ IsExclusiveRun ⟨"out"⟩ { machine := { tree := {} } } overlapping
    ∧ (run ⟨"out"⟩ { machine := { tree := {} } } (overlapping.take 5)).tree.read "out/a/Foo.java"
      = .ok [1, 2, 3]
    ∧ (run ⟨"out"⟩ { machine := { tree := {} } } overlapping).commits
      = (run ⟨"out"⟩ { machine := { tree := {} } } (overlapping.take 5)).commits
    ∧ (run ⟨"out"⟩ { machine := { tree := {} } } overlapping).tree.read "out/a/Foo.java"
      = .ok [9, 2, 3]
  := by
  have hexclusive : IsExclusiveRun ⟨"out"⟩ { machine := { tree := {} } } interleaved := by
    decide +kernel
  have hcommits : (run ⟨"out"⟩ { machine := { tree := {} } } interleaved).commits
      = [(↑"out/a/Foo.java", [1, 2, 4]), (↑"out/a/Bar.java", [3])] := by
    decide +kernel
  refine ⟨FileTree.wellFormed_empty, hexclusive, ?_, ?_, ?_, ?_, ?_⟩
  · intro artifact
    rw [← hcommits]
    exact (targets_have_last_commits ⟨"out"⟩ FileTree.wellFormed_empty hexclusive 11 artifact).1
  · decide +kernel
  · decide +kernel
  · decide +kernel
  · decide +kernel

end Bench

end InstanceState
