import InstanceState.Proofs.Generation.Intake

/-!
# The ledger of a batch

What a batch says that is to be published for each owner, and what came of publishing it, as a list
with one entry for each owner with a field to keep.  Over any sink, in any monad, a batch publishes
the companions of these owners in turn, and its report is settled from the ledger.
-/

namespace InstanceState

open Batch

/-! ### Ledgers -/

/-- What came of publishing the companions of owners, in order. -/
abbrev Ledger : Type := List (TypeName × Except SinkError Unit)

namespace Ledger

/-- The owners whose companions were committed. -/
def committed (l : Ledger) : List TypeName :=
  l.filterMap fun e => match e.2 with
    | .ok () => some e.1
    | .error _ => none

/-- The owners whose companions could not be produced, with the errors. -/
def failures (l : Ledger) : List (TypeName × SinkError) :=
  l.filterMap fun e => match e.2 with
    | .ok () => none
    | .error err => some (e.1, err)

@[simp]
theorem committed_cons_ok (owner : TypeName) (l : Ledger) :
  committed ((owner, .ok ()) :: l) = owner :: committed l
  := rfl

@[simp]
theorem committed_cons_error (owner : TypeName) (e : SinkError) (l : Ledger) :
  committed ((owner, .error e) :: l) = committed l
  := rfl

@[simp]
theorem failures_cons_ok (owner : TypeName) (l : Ledger) :
  failures ((owner, .ok ()) :: l) = failures l
  := rfl

@[simp]
theorem failures_cons_error (owner : TypeName) (e : SinkError) (l : Ledger) :
  failures ((owner, .error e) :: l) = (owner, e) :: failures l
  := rfl

/-- Each owner is committed or has failed. -/
theorem length_committed_add (l : Ledger) :
  l.committed.length + l.failures.length = l.length
  := by
  induction l with
  | nil => rfl
  | cons e l ih =>
    obtain ⟨owner, e | ⟨⟩⟩ := e
    · rw [committed_cons_error, failures_cons_error, List.length_cons, List.length_cons, ← ih,
        Nat.add_assoc]
    · rw [committed_cons_ok, failures_cons_ok, List.length_cons, List.length_cons, ← ih,
        Nat.add_right_comm]

/-- The owners of the entries, in order. -/
def owners (l : Ledger) : List TypeName := l.map Prod.fst

@[simp]
theorem owners_cons (e : TypeName × Except SinkError Unit) (l : Ledger) :
  owners (e :: l) = e.1 :: owners l
  := rfl

/-- The owners that have failed are in order. -/
theorem failures_sublist (l : Ledger) :
  (l.failures.map Prod.fst).Sublist l.owners
  := by
  induction l with
  | nil => exact .slnil
  | cons e l ih =>
    obtain ⟨owner, e | ⟨⟩⟩ := e
    · exact ih.cons_cons owner
    · exact ih.cons owner

/-- The owners that are committed are those that have not failed. -/
theorem committed_eq_filter {l : Ledger} (h : l.owners.Nodup) :
  l.committed = l.owners.filter fun owner => owner ∉ l.failures.map Prod.fst
  := by
  induction l with
  | nil => rfl
  | cons e l ih =>
    rw [owners_cons, List.nodup_cons] at h
    obtain ⟨howner, hl⟩ := h
    obtain ⟨owner, e | ⟨⟩⟩ := e
    · rw [committed_cons_error, failures_cons_error, owners_cons, List.map_cons,
        List.filter_cons_of_neg (by simp), ih hl]
      apply List.filter_congr
      intro other hother
      have hne : other ≠ owner := by
        rintro rfl
        contradiction
      simp [hne]
    · have hfailed : owner ∉ (failures l).map Prod.fst := by
        intro hfailed
        apply howner ((failures_sublist l).subset hfailed)
      rw [committed_cons_ok, failures_cons_ok, owners_cons,
        List.filter_cons_of_pos (by simpa using hfailed), ih hl]

end Ledger

namespace Generator

variable (g : Generator)

/-! ### Companions of owners -/

/-- The companion of an owner, by what the batch says about the owner. -/
def companionOf (fields : List Field) (owner : TypeName) : Companion where
  layout := owner.layout (package fields owner)
  suffix := g.settings.suffix
  namespaceKeys := g.settings.namespaceKeys
  family :=
    if ∃ base ∈ g.settings.viewBases, g.graph.isAssignable owner.text base = true then .view
    else .host
  fields := (kept fields owner).map fun f => ⟨f, g.resolver.resolve f.declaredType⟩

/-- The name under which the companion of an owner is committed. -/
def artifactOf (fields : List Field) (owner : TypeName) : Text :=
  (owner.layout (package fields owner)).artifactName g.settings.suffix

theorem companion_groupOf (fields : List Field) (owner : TypeName) :
  g.companion (g.groupOf fields owner) = g.companionOf fields owner
  := by
  have hfamily : g.graph.family owner g.settings.viewBases
      = if ∃ base ∈ g.settings.viewBases, g.graph.isAssignable owner.text base = true then .view
        else .host := by
    simp only [TypeGraph.family, List.any_eq_true]
  rw [companionOf, ← hfamily]
  rfl

theorem artifact_companionOf (fields : List Field) (owner : TypeName) :
  (g.companionOf fields owner).artifact = g.artifactOf fields owner
  := rfl

theorem isEmpty_groupOf (fields : List Field) (owner : TypeName) :
  (g.groupOf fields owner).isEmpty = (kept fields owner).isEmpty
  := List.isEmpty_map

theorem flatten_chunks (c : Companion) :
  c.chunks.flatten = Utf8.encode c.source
  := (Utf8.encode_flatten _).symm

/-- The artifacts have different names if fields of different owners have. -/
theorem nodup_artifacts {fields : List Field}
    (h : ∀ f ∈ fields, ∀ f' ∈ fields,
      g.artifactOf fields f.owner = g.artifactOf fields f'.owner → f.owner = f'.owner) :
  ((published fields).map (g.artifactOf fields)).Nodup
  := by
  apply (published_nodup fields).map_on
  intro a ha b hb hartifact
  obtain ⟨f, hf, rfl, -⟩ := mem_published_iff.1 ha
  obtain ⟨f', hf', rfl, -⟩ := mem_published_iff.1 hb
  apply h f hf f' hf' hartifact

/-! ### Reports -/

/-- The report after so many more skipped groups, and after more companions were published as a
ledger tells. -/
def settle (fields : List Field) (report : Report) (skips : Nat) (l : Ledger) : Report :=
  { report with
    written := report.written ++ l.committed.map (g.artifactOf fields)
    failedGroups := report.failedGroups + l.failures.length
    skippedGroups := report.skippedGroups + skips
    diagnostics := report.diagnostics ++ l.failures.map fun f => .ofSinkError f.1 f.2 }

theorem settle_nil (fields : List Field) (report : Report) :
  g.settle fields report 0 [] = report
  := by
  simp [settle, Ledger.committed, Ledger.failures]

theorem settle_settle (fields : List Field) (report : Report) (skips skips' : Nat)
    (e : TypeName × Except SinkError Unit) (l : Ledger) :
  g.settle fields (g.settle fields report skips [e]) skips' l
    = g.settle fields report (skips + skips') (e :: l)
  := by
  obtain ⟨owner, e | ⟨⟩⟩ := e
  · simp [settle, Ledger.committed, Ledger.failures, Nat.add_assoc, Nat.add_comm 1]
  · simp [settle, Ledger.committed, Ledger.failures, Nat.add_assoc]

theorem settle_skip (fields : List Field) (report : Report) (skips : Nat) (l : Ledger) :
  g.settle fields { report with skippedGroups := report.skippedGroups + 1 } skips l
    = g.settle fields report (skips + 1) l
  := by
  simp [settle, Nat.add_assoc, Nat.add_comm 1]

/-! ### Publication -/

variable {m : Type → Type} [Monad m] [LawfulMonad m] {W : Type} (s : Sink m W)

/-- Publishes the companion of an owner. -/
def publishOwner (fields : List Field) (owner : TypeName) :
    m (TypeName × Except SinkError Unit) := do
  return (owner, ← s.publish (g.artifactOf fields owner) (g.companionOf fields owner).chunks)

/-- Publishing the group of an owner with fields adds one entry. -/
theorem publishGroup_groupOf {fields : List Field} {owner : TypeName}
    (h : (kept fields owner).isEmpty = false) (report : Report) :
  g.publishGroup s report (g.groupOf fields owner)
    = (fun e => g.settle fields report 0 [e]) <$> g.publishOwner s fields owner
  := by
  rw [publishGroup, if_neg (Bool.eq_false_iff.1 ((g.isEmpty_groupOf fields owner).trans h)),
    companion_groupOf, publishOwner, map_bind]
  apply bind_congr
  intro outcome
  rw [map_pure]
  obtain e | ⟨⟩ := outcome
  · simp [settle, Ledger.committed, Ledger.failures, groupOf]
  · simp [settle, Ledger.committed, Ledger.failures, artifact_companionOf]

/-- The report after the groups of some of the owners, by what came of those with fields. -/
theorem publishGroups_eq (fields : List Field) (owners : List TypeName) (report : Report) :
  g.publishGroups s report (owners.map (g.groupOf fields))
    = g.settle fields report (owners.filter fun owner => (kept fields owner).isEmpty).length
      <$> (owners.filter fun owner => !(kept fields owner).isEmpty).mapM (g.publishOwner s fields)
  := by
  induction owners generalizing report with
  | nil =>
    rw [List.map_nil, publishGroups, List.filter_nil, List.filter_nil, List.mapM_nil, map_pure,
      List.length_nil, settle_nil]
  | cons owner owners ih =>
    rw [List.map_cons, publishGroups, List.filter_cons, List.filter_cons]
    cases h : (kept fields owner).isEmpty with
    | true =>
      -- a skipped group counts in the report, and leaves no entry in the ledger
      rw [publishGroup, if_pos ((g.isEmpty_groupOf fields owner).trans h), pure_bind, ih]
      congr 1
      funext l
      apply settle_skip
    | false =>
      rw [publishGroup_groupOf g s h, bind_map_left]
      simp only [ih, Bool.not_false, if_true, Bool.false_eq_true, if_false, List.mapM_cons,
        map_bind, bind_pure_comp, Functor.map_map]
      apply bind_congr
      intro e
      congr 1
      funext l
      rw [settle_settle, Nat.zero_add]

/-- What a batch comes to before any companion is published. -/
def intakeReport (fields : List Field) : Report where
  rejectedFields := (rejected fields).length
  diagnostics := (rejected fields).map fun f => .ofFieldError ⟨f.owner, f.name, f.violations⟩

/-- A batch publishes the companion of each owner with fields in turn, over any sink, and reports
what came of them. -/
theorem generate_eq (fields : List Field) :
  g.generate s fields
    = g.settle fields (intakeReport fields) (skipped fields).length
      <$> (published fields).mapM (g.publishOwner s fields)
  := by
  rw [generate, groups_collect, publishGroups_eq, rejections_collect, List.length_map,
    List.map_map]
  rfl

end Generator

end InstanceState
