import InstanceState.Proofs.Generation.Accounts
import InstanceState.Proofs.Sink.Delivery
import Mathlib.Data.List.Permutation

/-!
# Batches on machines that fail

A batch whose artifacts have different plain names is published to a directory of a machine on which
any operation may fail.  Whatever fails, each artifact that is reported as written has its whole
source, the file of each other artifact is as it was, no partial file stays that was acquired, and
no other file changes.  This follows owner by owner: what one publication leaves is not touched by
those that come after it.
-/

namespace InstanceState

open Batch
open FileTree (Changes)
open ArtifactDirectory (IsPlain WasAcquired)

namespace Ledger

theorem mem_failures_iff {l : Ledger} {f : TypeName × SinkError} :
  f ∈ l.failures ↔ (f.1, .error f.2) ∈ l
  := by
  induction l with
  | nil => simp [failures]
  | cons e l ih =>
    obtain ⟨owner, e | ⟨⟩⟩ := e
    · rw [failures_cons_error, List.mem_cons, List.mem_cons, ih, Prod.ext_iff, Prod.ext_iff]
      simp
    · rw [failures_cons_ok, List.mem_cons, ih]
      simp

theorem mem_committed_iff {l : Ledger} {owner : TypeName} :
  owner ∈ l.committed ↔ (owner, .ok ()) ∈ l
  := by
  induction l with
  | nil => simp [committed]
  | cons e l ih =>
    obtain ⟨owner', e | ⟨⟩⟩ := e
    · rw [committed_cons_error, List.mem_cons, ih]
      simp
    · rw [committed_cons_ok, List.mem_cons, List.mem_cons, ih]
      simp

end Ledger

namespace Generator

variable {g : Generator} {d : ArtifactDirectory} {fields : List Field} {l : Ledger}
  {t t₁ t' : FileTree}

/-! ### Places that a batch touches -/

/-- Whether a place is that of a partial file that was acquired or of a target that was written, as
a ledger tells. -/
def Touches (g : Generator) (d : ArtifactDirectory) (fields : List Field) (t : FileTree)
    (l : Ledger) (place : Place) : Prop :=
  ∃ e ∈ l, WasAcquired e.2 ∧ place = d.partialPlace t (g.artifactOf fields e.1)
    ∨ e.2 = .ok () ∧ place = d.targetPlace t (g.artifactOf fields e.1)

/-- The artifacts of the owners of a ledger have plain names. -/
def ArePlain (g : Generator) (fields : List Field) (l : Ledger) : Prop :=
  ∀ e ∈ l, IsPlain (g.artifactOf fields e.1)

/-- A target is touched only where it is written. -/
theorem exists_of_touches_targetPlace (hplain : g.ArePlain fields l) {artifact : Text}
    (hartifact : IsPlain artifact) (h : g.Touches d fields t l (d.targetPlace t artifact)) :
  ∃ e ∈ l, g.artifactOf fields e.1 = artifact ∧ e.2 = .ok ()
  := by
  obtain ⟨e, he, ⟨-, hplace⟩ | ⟨hok, hplace⟩⟩ := h
  · exact absurd hplace (d.targetPlace_ne_partialPlace t _ _)
  · refine ⟨e, he, ?_, hok⟩
    apply ArtifactDirectory.eq_of_placeOf_pathWith_eq (hplain e he) hartifact _ hplace.symm
    apply ArtifactDirectory.sourceExtension_mem

/-- A partial file is touched only where it is acquired. -/
theorem exists_of_touches_partialPlace (hplain : g.ArePlain fields l) {artifact : Text}
    (hartifact : IsPlain artifact) (h : g.Touches d fields t l (d.partialPlace t artifact)) :
  ∃ e ∈ l, g.artifactOf fields e.1 = artifact ∧ WasAcquired e.2
  := by
  obtain ⟨e, he, ⟨hacquired, hplace⟩ | ⟨-, hplace⟩⟩ := h
  · refine ⟨e, he, ?_, hacquired⟩
    apply ArtifactDirectory.eq_of_placeOf_pathWith_eq (hplain e he) hartifact _ hplace.symm
    apply ArtifactDirectory.partialExtension_mem
  · exact absurd hplace.symm (d.targetPlace_ne_partialPlace t _ _)

/-! ### Publications in turn -/

/-- What the publications of a ledger do to the files of a tree. -/
structure Publishes (g : Generator) (d : ArtifactDirectory) (fields : List Field) (l : Ledger)
    (t t' : FileTree) : Prop where
  changes : Changes (g.Touches d fields t l) t t'
  read_eq : ∀ e ∈ l, e.2 = .ok () →
    t'.read (d.pathOf (g.artifactOf fields e.1))
      = .ok (Utf8.encode (g.companionOf fields e.1).source)
  octetsAt?_eq_none : ∀ e ∈ l, WasAcquired e.2 →
    t'.octetsAt? (d.partialPlace t (g.artifactOf fields e.1)) = none

theorem Publishes.nil (ht : t.WellFormed) :
  g.Publishes d fields [] t t
  := by
  refine ⟨.refl ht _, ?_, ?_⟩ <;>
  · intro e he
    contradiction

/-- What a publication leaves stays as it is while other artifacts are published. -/
theorem Publishes.cons {owner : TypeName} {outcome : Except SinkError Unit}
    (h : d.IsPublication (g.artifactOf fields owner)
      (Utf8.encode (g.companionOf fields owner).source) t t₁ outcome)
    (hl : g.Publishes d fields l t₁ t') (hplain : g.ArePlain fields ((owner, outcome) :: l))
    (hne : ∀ e ∈ l, g.artifactOf fields e.1 ≠ g.artifactOf fields owner) :
  g.Publishes d fields ((owner, outcome) :: l) t t'
  := by
  obtain ⟨howner, hplain⟩ := List.forall_mem_cons.1 hplain
  have hchanges := h.changes
  have hpartial : ∀ artifact, d.partialPlace t₁ artifact = d.partialPlace t artifact :=
    fun artifact => hchanges.placeOf_eq _
  have htarget : ∀ artifact, d.targetPlace t₁ artifact = d.targetPlace t artifact :=
    fun artifact => hchanges.placeOf_eq _
  constructor
  · apply (hchanges.mono _).trans (hl.changes.mono _)
    · intro place hplace
      exact ⟨_, List.mem_cons_self, hplace⟩
    · rintro place ⟨e, he, hplace⟩
      rw [hpartial, htarget] at hplace
      exact ⟨e, List.mem_cons_of_mem _ he, hplace⟩
  · -- what was delivered is read as before, since no later publication has its target
    rw [List.forall_mem_cons]
    refine ⟨?_, hl.read_eq⟩
    intro hok
    apply hl.changes.read_eq _ (h.read_eq hok)
    intro htouched
    obtain ⟨e, he, hartifact, -⟩ := exists_of_touches_targetPlace hplain howner htouched
    exact hne e he hartifact
  · rw [List.forall_mem_cons]
    constructor
    · intro hacquired
      rw [hl.changes.octetsAt?_eq, h.octetsAt?_eq_none hacquired]
      rw [← hpartial]
      intro htouched
      obtain ⟨e, he, hartifact, -⟩ := exists_of_touches_partialPlace hplain howner htouched
      exact hne e he hartifact
    · intro e he hacquired
      rw [← hpartial]
      exact hl.octetsAt?_eq_none e he hacquired

/-- Owners with artifacts of different plain names are published in turn, whatever fails. -/
theorem exists_publishes (g : Generator) (d : ArtifactDirectory) (fields : List Field)
    {owners : List TypeName} (hnodup : (owners.map (g.artifactOf fields)).Nodup)
    (hplain : ∀ owner ∈ owners, IsPlain (g.artifactOf fields owner)) {m : Machine}
    (ht : m.tree.WellFormed) :
  ∃ (l : Ledger) (m' : Machine),
    (owners.mapM (g.publishOwner (d.sink Machine.system) fields)).run m = (l, m')
      ∧ l.owners = owners ∧ (∀ f ∈ l.failures, f.2.artifact = g.artifactOf fields f.1)
      ∧ g.Publishes d fields l m.tree m'.tree
  := by
  induction owners generalizing m with
  | nil =>
    use [], m, rfl, rfl
    refine ⟨?_, .nil ht⟩
    intro f hf
    contradiction
  | cons owner owners ih =>
    rw [List.map_cons, List.nodup_cons] at hnodup
    obtain ⟨howner, hnodup⟩ := hnodup
    obtain ⟨outcome, m₁, hpublish, hpublication⟩ := ArtifactDirectory.exists_publish ht d
      (g.artifactOf fields owner) (g.companionOf fields owner).chunks
    rw [flatten_chunks] at hpublication
    obtain ⟨l, m', hrun, howners, hartifacts, hpublishes⟩ :=
      ih hnodup (fun o ho => hplain o (List.mem_cons_of_mem _ ho)) hpublication.changes.wellFormed
    have hentry : (g.publishOwner (d.sink Machine.system) fields owner).run m
        = ((owner, outcome), m₁) := by
      rw [publishOwner, run_bind_eq hpublish]
      rfl
    have hmem : ∀ e ∈ l, e.1 ∈ owners := by
      intro e he
      rw [← howners]
      exact List.mem_map_of_mem he
    use (owner, outcome) :: l, m'
    rw [List.mapM_cons, run_bind_eq hentry, run_bind_eq hrun]
    refine ⟨rfl, ?_, ?_, hpublishes.cons hpublication ?_ ?_⟩
    · rw [Ledger.owners_cons, howners]
    · intro f hf
      rw [Ledger.mem_failures_iff, List.mem_cons] at hf
      rcases hf with hf | hf
      · cases hf
        exact hpublication.artifact_eq rfl
      · exact hartifacts f (Ledger.mem_failures_iff.2 hf)
    · rw [ArePlain, List.forall_mem_cons]
      refine ⟨hplain owner List.mem_cons_self, ?_⟩
      intro e he
      apply hplain e.1 (List.mem_cons_of_mem _ (hmem e he))
    · intro e he hartifact
      apply howner
      rw [← hartifact]
      exact List.mem_map_of_mem (hmem e he)

/-! ### Batches -/

/-- Whether the partial file of an owner was acquired: the owner has not failed before that. -/
def Acquired (failures : List (TypeName × SinkError)) (owner : TypeName) : Prop :=
  ∀ e, (owner, e) ∈ failures → e.stage ≠ .create

/-- What a batch does to the files of a tree. -/
structure Leaves (g : Generator) (d : ArtifactDirectory) (fields : List Field) (report : Report)
    (failures : List (TypeName × SinkError)) (t t' : FileTree) : Prop where
  /-- An artifact that is reported as written has its whole source. -/
  written : ∀ artifact ∈ report.written, ∃ owner ∈ published fields,
    g.artifactOf fields owner = artifact
      ∧ t'.read (d.pathOf artifact) = .ok (Utf8.encode (g.companionOf fields owner).source)
  /-- The file of an owner that has failed is as it was, be it missing or not. -/
  failed : ∀ f ∈ failures,
    t'.octetsAt? (d.targetPlace t (g.artifactOf fields f.1))
        = t.octetsAt? (d.targetPlace t (g.artifactOf fields f.1))
      ∧ ∀ octets, t.read (d.pathOf (g.artifactOf fields f.1)) = .ok octets →
        t'.read (d.pathOf (g.artifactOf fields f.1)) = .ok octets
  /-- No partial file that was acquired stays. -/
  acquired : ∀ owner ∈ published fields, Acquired failures owner →
    t'.octetsAt? (d.partialPlace t (g.artifactOf fields owner)) = none
  /-- No other file changes. -/
  others : ∀ place,
    (∀ owner ∈ published fields,
      (owner ∉ failures.map Prod.fst → place ≠ d.targetPlace t (g.artifactOf fields owner))
        ∧ (Acquired failures owner → place ≠ d.partialPlace t (g.artifactOf fields owner))) →
    t'.octetsAt? place = t.octetsAt? place

/-- The outcomes in a ledger tell which partial files were acquired. -/
theorem wasAcquired_iff (hnodup : l.owners.Nodup) {e : TypeName × Except SinkError Unit}
    (he : e ∈ l) :
  WasAcquired e.2 ↔ Acquired l.failures e.1
  := by
  constructor
  · intro h err hmem
    rw [Ledger.mem_failures_iff] at hmem
    have heq := List.inj_on_of_nodup_map hnodup he hmem rfl
    apply h err
    rw [heq]
  · intro h err herr
    apply h err
    rw [Ledger.mem_failures_iff]
    rwa [← herr]

/-- Publications of the owners of a batch with different artifacts leave what a batch does. -/
theorem Publishes.leaves (h : g.Publishes d fields l t t') (howners : l.owners = published fields)
    (hnodup : ((published fields).map (g.artifactOf fields)).Nodup)
    (hplain : ∀ owner ∈ published fields, IsPlain (g.artifactOf fields owner)) :
  g.Leaves d fields (g.settle fields (intakeReport fields) (skipped fields).length l) l.failures
    t t'
  := by
  have hdistinct : l.owners.Nodup := howners ▸ published_nodup fields
  have hmem : ∀ e ∈ l, e.1 ∈ published fields := by
    intro e he
    rw [← howners]
    exact List.mem_map_of_mem he
  have hplains : g.ArePlain fields l := fun e he => hplain e.1 (hmem e he)
  have hentry : ∀ e ∈ l, ∀ e' ∈ l, g.artifactOf fields e.1 = g.artifactOf fields e'.1 → e = e' := by
    intro e he e' he' hartifact
    apply List.inj_on_of_nodup_map hdistinct he he'
    exact List.inj_on_of_nodup_map hnodup (hmem e he) (hmem e' he') hartifact
  have hledger : ∀ owner ∈ published fields, ∃ outcome, (owner, outcome) ∈ l := by
    intro owner howner
    rw [← howners, Ledger.owners, List.mem_map] at howner
    obtain ⟨e, he, rfl⟩ := howner
    exact ⟨e.2, he⟩
  constructor
  · intro artifact hartifact
    rw [settle, intakeReport, List.nil_append, List.mem_map] at hartifact
    obtain ⟨owner, howner, rfl⟩ := hartifact
    rw [Ledger.mem_committed_iff] at howner
    use owner, hmem _ howner, rfl
    apply h.read_eq _ howner rfl
  · intro f hf
    rw [Ledger.mem_failures_iff] at hf
    have huntouched : ¬ g.Touches d fields t l (d.targetPlace t (g.artifactOf fields f.1)) := by
      intro htouched
      obtain ⟨e, he, hartifact, hok⟩ :=
        exists_of_touches_targetPlace hplains (hplains _ hf) htouched
      obtain rfl := hentry e he _ hf hartifact
      cases hok
    constructor
    · apply h.changes.octetsAt?_eq huntouched
    · intro octets hread
      apply h.changes.read_eq huntouched hread
  · intro owner howner hacquired
    obtain ⟨outcome, he⟩ := hledger owner howner
    apply h.octetsAt?_eq_none _ he
    rwa [wasAcquired_iff hdistinct he]
  · intro place hplace
    apply h.changes.octetsAt?_eq
    rintro ⟨e, he, htouched⟩
    obtain ⟨htarget, hpartial⟩ := hplace e.1 (hmem e he)
    obtain ⟨hacquired, heq⟩ | ⟨hok, heq⟩ := htouched
    · exact hpartial ((wasAcquired_iff hdistinct he).1 hacquired) heq
    · apply htarget _ heq
      intro hfailed
      obtain ⟨f, hf, hf'⟩ := List.mem_map.1 hfailed
      rw [Ledger.mem_failures_iff] at hf
      have hsame := List.inj_on_of_nodup_map hdistinct hf he hf'
      rw [← hsame] at hok
      cases hok

/-- A batch whose artifacts have different plain names leaves each of them whole or as it was, from
any tree and whichever operations of the machine fail: what is reported as written is there with its
whole source, what has failed is as before, no partial file that was acquired stays, and no other
file changes. -/
theorem generate_leaves_whole_files (g : Generator) (d : ArtifactDirectory) (fields : List Field)
    (hnodup : ((published fields).map (g.artifactOf fields)).Nodup)
    (hplain : ∀ owner ∈ published fields, IsPlain (g.artifactOf fields owner)) (m : Machine)
    (ht : m.tree.WellFormed) :
  ∃ (report : Report) (failures : List (TypeName × SinkError)) (m' : Machine),
    (g.generate (d.sink Machine.system) fields).run m = (report, m')
      ∧ Accounts g fields report failures
      ∧ g.Leaves d fields report failures m.tree m'.tree
  := by
  obtain ⟨l, m', hrun, howners, hartifacts, hpublishes⟩ :=
    g.exists_publishes d fields hnodup hplain ht
  use g.settle fields (intakeReport fields) (skipped fields).length l, l.failures, m'
  rw [generate_eq, StateT.run_map, hrun]
  exact ⟨rfl, g.accounts_settle howners hartifacts, hpublishes.leaves howners hnodup hplain⟩

/-- Fields of two owners. -/
def twins : List Field :=
  [{ name := "count", declaredType := "int", owner := ⟨"a.Foo"⟩ },
   { name := "title", declaredType := "java.lang.String", owner := ⟨"a.Bar"⟩ }]

/-- A machine with an old companion and a partial file that was left beside it, which takes few
octets at a time and fails once. -/
def attic : Machine where
  tree := (FileTree.supply {} "out/a/Foo$$Icicle.java" [111]).supply
    "out/a/Foo$$Icicle.java.partial" [112]
  fates n := if n = 9 then .failed (.other "no space left on device") 0 else .short 99

/-- The old companion is replaced as a whole or stays. -/
theorem attic_leaves_whole_files :
  ((published twins).map (artifactOf ⟨{}, .stock⟩ twins)).Nodup
    ∧ (∀ owner ∈ published twins, IsPlain (artifactOf ⟨{}, .stock⟩ twins owner))
    ∧ attic.tree.WellFormed
    ∧ ∃ report m',
      (generate ⟨{}, .stock⟩ (ArtifactDirectory.sink Machine.system ⟨"out"⟩) twins).run attic
          = (report, m')
        ∧ (m'.tree.read "out/a/Foo$$Icicle.java" = .ok [111]
          ∨ m'.tree.read "out/a/Foo$$Icicle.java"
            = .ok (Utf8.encode (companionOf ⟨{}, .stock⟩ twins ⟨"a.Foo"⟩).source))
  := by
  have hpublished : published twins = [⟨"a.Bar"⟩, ⟨"a.Foo"⟩] := by
    cbv
  have hnodup : ((published twins).map (artifactOf ⟨{}, .stock⟩ twins)).Nodup := by
    rw [hpublished]
    decide
  have hplain : ∀ owner ∈ published twins, IsPlain (artifactOf ⟨{}, .stock⟩ twins owner) := by
    rw [hpublished]
    decide
  have htree : attic.tree.WellFormed := by
    dsimp only [attic]
    apply FileTree.wellFormed_supply
    apply FileTree.wellFormed_supply FileTree.wellFormed_empty
  obtain ⟨report, failures, m', hrun, haccounts, hleaves⟩ :=
    generate_leaves_whole_files ⟨{}, .stock⟩ ⟨"out"⟩ twins hnodup hplain attic htree
  refine ⟨hnodup, hplain, htree, report, m', hrun, ?_⟩
  have hfoo : ⟨"a.Foo"⟩ ∈ published twins := by
    rw [hpublished]
    decide
  have hold : attic.tree.read "out/a/Foo$$Icicle.java" = .ok [111] := by
    decide +kernel
  by_cases hfailed : ⟨"a.Foo"⟩ ∈ failures.map Prod.fst
  · left
    obtain ⟨f, hf, howner⟩ := List.mem_map.1 hfailed
    have hread := (hleaves.failed f hf).2 [111]
    rw [howner] at hread
    exact hread hold
  · right
    have hwritten : ↑"a.Foo$$Icicle" ∈ report.written := by
      rw [haccounts.written_eq]
      exact List.mem_map_of_mem (List.mem_filter.2 ⟨hfoo, decide_eq_true hfailed⟩)
    obtain ⟨owner, howner, hartifact, hread⟩ := hleaves.written _ hwritten
    obtain rfl : owner = ⟨"a.Foo"⟩ := List.inj_on_of_nodup_map hnodup howner hfoo hartifact
    exact hread

end Generator

end InstanceState
