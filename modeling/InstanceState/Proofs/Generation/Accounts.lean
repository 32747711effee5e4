import InstanceState.CommandLine.Run
import InstanceState.Files.Tree
import InstanceState.Proofs.Generation.Ledger
import InstanceState.Proofs.Sink.Traced

/-!
# The accounts of a batch

Over any state machine as its sink, the report of a batch balances: each owner is written, has
failed or was skipped, and what is reported are the rejected fields and then the failed owners, one
error each.  So a report is clean exactly if nothing was reported, and a command line that generates
companions succeeds exactly then, and otherwise ends with the number of errors.
-/

namespace InstanceState

open Batch

/-- A report of a batch and the failures of its owners that account for each other. -/
structure Accounts (g : Generator) (fields : List Field) (report : Report)
    (failures : List (TypeName × SinkError)) : Prop where
  /-- Each owner is written, has failed or was skipped. -/
  length_owners : (fields.map Field.owner).dedup.length
    = report.written.length + report.failedGroups + report.skippedGroups
  /-- The owners that have failed are owners with a field to keep, in order. -/
  failures_sublist : (failures.map Prod.fst).Sublist (published fields)
  /-- The others are written. -/
  written_eq : report.written
    = ((published fields).filter fun owner => owner ∉ failures.map Prod.fst).map
      (g.artifactOf fields)
  rejectedFields_eq : report.rejectedFields = (rejected fields).length
  failedGroups_eq : report.failedGroups = failures.length
  skippedGroups_eq : report.skippedGroups = (skipped fields).length
  /-- There is one error for each rejected field, in the order of the batch, and then one for each
  owner that has failed. -/
  diagnostics_eq : report.diagnostics
    = (rejected fields).map (fun f =>
        ⟨.error, .field f.owner f.name,
          "field '" ++ f.name ++ "' must not be private, static or final (found: "
            ++ Text.joinWith ", " (([.privateField, .staticField, .finalField].filter
              f.modifiers.has).map Modifier.keyword) ++ ")"⟩)
      ++ failures.map fun f =>
        ⟨.error, .type f.1, "impossible to " ++ f.2.stage.verb ++ " '" ++ g.artifactOf fields f.1
          ++ "': " ++ f.2.cause⟩

/-! ### Reports that balance -/

namespace Accounts

variable {g : Generator} {fields : List Field} {report : Report}
  {failures : List (TypeName × SinkError)}

theorem length_diagnostics (h : Accounts g fields report failures) :
  report.diagnostics.length = report.rejectedFields + report.failedGroups
  := by
  rw [h.diagnostics_eq, h.rejectedFields_eq, h.failedGroups_eq, List.length_append,
    List.length_map, List.length_map]

theorem isError_of_mem (h : Accounts g fields report failures) :
  ∀ d ∈ report.diagnostics, d.severity = .error
  := by
  intro d hd
  rw [h.diagnostics_eq, List.mem_append, List.mem_map, List.mem_map] at hd
  obtain ⟨f, -, rfl⟩ | ⟨f, -, rfl⟩ := hd
  · rfl
  · rfl

theorem isClean_iff (h : Accounts g fields report failures) :
  report.isClean = true ↔ report.diagnostics = []
  := by
  rw [← List.length_eq_zero_iff, h.length_diagnostics, Nat.add_eq_zero_iff, Report.isClean,
    Bool.and_eq_true, decide_eq_true_iff, decide_eq_true_iff]

/-- All diagnostics count as errors. -/
theorem errorCount_append (h : Accounts g fields report failures) (earlier : List Diagnostic) :
  errorCount (earlier ++ report.diagnostics)
    = errorCount earlier + (report.rejectedFields + report.failedGroups)
  := by
  have hall : report.diagnostics.countP Diagnostic.isError = report.diagnostics.length := by
    rw [List.countP_eq_length]
    intro d hd
    rw [Diagnostic.isError, h.isError_of_mem d hd]
    rfl
  rw [errorCount, List.countP_append, hall, h.length_diagnostics]
  rfl

theorem errorCount_diagnostics (h : Accounts g fields report failures) :
  errorCount report.diagnostics = report.rejectedFields + report.failedGroups
  := by
  have happend := h.errorCount_append []
  rw [List.nil_append] at happend
  apply happend.trans
  apply Nat.zero_add

end Accounts

/-! ### Runs -/

namespace Generator

variable {σ W : Type} (g : Generator) (s : Sink (StateM σ) W)

/-- Each owner is published in turn, and an error tells the artifact of its owner. -/
theorem exists_mapM_publishOwner (fields : List Field) (owners : List TypeName) (st : σ) :
  ∃ (l : Ledger) (st' : σ),
    (owners.mapM (g.publishOwner s fields)).run st = (l, st')
      ∧ l.owners = owners
      ∧ ∀ f ∈ l.failures, f.2.artifact = g.artifactOf fields f.1
  := by
  induction owners generalizing st with
  | nil =>
    use [], st, rfl, rfl
    intro f hf
    contradiction
  | cons owner owners ih =>
    obtain ⟨session, st₁, hsubject, hpublish, -⟩ := s.exists_publish []
      (g.artifactOf fields owner) (g.companionOf fields owner).chunks st
    obtain ⟨l, st', hrun, howners, hartifacts⟩ := ih st₁
    have hentry : (g.publishOwner s fields owner).run st = ((owner, session.outcome), st₁) := by
      rw [publishOwner, run_bind_eq hpublish]
      rfl
    use (owner, session.outcome) :: l, st'
    rw [List.mapM_cons, run_bind_eq hentry, run_bind_eq hrun]
    refine ⟨rfl, ?_, ?_⟩
    · rw [Ledger.owners_cons, howners]
    · cases houtcome : session.outcome with
      | ok =>
        rw [Ledger.failures_cons_ok]
        exact hartifacts
      | error e =>
        rw [Ledger.failures_cons_error, List.forall_mem_cons]
        refine ⟨?_, hartifacts⟩
        apply (Session.artifact_of_outcome houtcome).trans
        exact congrArg Prod.fst hsubject

/-- A report that is settled from a ledger of the published owners balances. -/
theorem accounts_settle {fields : List Field} {l : Ledger} (howners : l.owners = published fields)
    (hartifacts : ∀ f ∈ l.failures, f.2.artifact = g.artifactOf fields f.1) :
  Accounts g fields (g.settle fields (intakeReport fields) (skipped fields).length l) l.failures
  := by
  refine ⟨?_, ?_, ?_, rfl, ?_, ?_, ?_⟩
  · have hledger : l.committed.length + l.failures.length = (published fields).length := by
      rw [Ledger.length_committed_add, ← howners, Ledger.owners, List.length_map]
    rw [← (owners_perm fields).length_eq, ← length_published_add, ← hledger]
    simp [settle, intakeReport]
  · rw [← howners]
    apply l.failures_sublist
  · have hnodup := published_nodup fields
    rw [← howners] at hnodup
    rw [settle, Ledger.committed_eq_filter hnodup, howners]
    rfl
  · apply Nat.zero_add
  · apply Nat.zero_add
  · have hfailures : l.failures.map (fun f => Diagnostic.ofSinkError f.1 f.2)
        = l.failures.map fun f => ⟨.error, .type f.1, "impossible to " ++ f.2.stage.verb ++ " '"
          ++ g.artifactOf fields f.1 ++ "': " ++ f.2.cause⟩ := by
      apply List.map_congr_left
      intro f hf
      rw [← hartifacts f hf]
      rfl
    rw [← hfailures]
    rfl

/-- A batch ends in a report that balances, over any sink and from any state of it. -/
theorem exists_accounts (fields : List Field) (st : σ) :
  ∃ (report : Report) (failures : List (TypeName × SinkError)) (st' : σ),
    (g.generate s fields).run st = (report, st') ∧ Accounts g fields report failures
  := by
  obtain ⟨l, st', hrun, howners, hartifacts⟩ :=
    g.exists_mapM_publishOwner s fields (published fields) st
  use g.settle fields (intakeReport fields) (skipped fields).length l, l.failures, st'
  rw [generate_eq, StateT.run_map, hrun]
  exact ⟨rfl, g.accounts_settle howners hartifacts⟩

end Generator

/-! ### Command lines -/

namespace CommandLine

variable {σ F : Type} {fs : FileSystem (StateM σ) F} {model config : Path} {settings : Settings}
  {m : Model} {st st₁ st₂ : σ}

/-- A command line that generates companions runs one batch, once the settings and the model are
loaded. -/
theorem run_perform_generate (outDir : Option Path)
    (hsettings : (Settings.load fs config).run st = (.ok settings, st₁))
    (hmodel : (Model.load fs model).run st₁ = (.ok m, st₂)) {report : Report} {st' : σ}
    (hrun : (Generator.generate ⟨settings.generator, m.graph⟩
      (ArtifactDirectory.sink fs ⟨outDir.getD settings.outDir⟩) m.fields).run st₂
      = (report, st')) :
  (perform fs (.generate model config outDir)).run st
    = (outcomeOf ⟨outDir.getD settings.outDir⟩ report, st')
  := by
  rw [perform, withSettings, run_bind_eq hsettings]
  dsimp only
  rw [withModel, run_bind_eq hmodel]
  dsimp only
  rw [run_bind_eq hrun]
  rfl

/-- The program succeeds exactly if the report is clean, and otherwise ends with the number of
errors. -/
theorem outcomeOf_eq {g : Generator} {fields : List Field} {report : Report}
    {failures : List (TypeName × SinkError)} (h : Accounts g fields report failures)
    (d : ArtifactDirectory) :
  outcomeOf d report
    = { exitCode := if report.isClean = true then 0 else 1
        output := pathLines d report.written
        error :=
          if report.isClean = true then none
          else some (errorCountMessage (report.rejectedFields + report.failedGroups))
        diagnostics := report.diagnostics }
  := by
  have hclean : report.rejectedFields + report.failedGroups = 0 ↔ report.isClean = true := by
    rw [← h.length_diagnostics, List.length_eq_zero_iff, h.isClean_iff]
  rw [outcomeOf, h.errorCount_diagnostics]
  simp only [hclean]

end CommandLine

/-- The report of a batch balances, over any sink and from any state of it, whichever of its
operations fail.  All that is reported are errors, and the report is clean exactly if there are
none; a count of the errors that were reported grows by the rejected fields and the failed owners.
The program that generates the companions of a model succeeds exactly if the report is clean, and
otherwise ends with the number of errors. -/
theorem generate_balances {σ : Type} :
  (∀ {W : Type} (s : Sink (StateM σ) W) (g : Generator) (fields : List Field) (st : σ),
    ∃ (report : Report) (failures : List (TypeName × SinkError)) (st' : σ),
      (g.generate s fields).run st = (report, st')
        ∧ Accounts g fields report failures
        ∧ report.diagnostics.length = report.rejectedFields + report.failedGroups
        ∧ (∀ d ∈ report.diagnostics, d.severity = .error)
        ∧ (report.isClean = true ↔ report.diagnostics = [])
        ∧ ∀ earlier,
          errorCount (earlier ++ report.diagnostics)
            = errorCount earlier + (report.rejectedFields + report.failedGroups))
    ∧ ∀ {F : Type} (fs : FileSystem (StateM σ) F) (model config : Path) (outDir : Option Path)
      (settings : Settings) (m : Model) (st st₁ st₂ : σ),
      (Settings.load fs config).run st = (.ok settings, st₁) →
      (Model.load fs model).run st₁ = (.ok m, st₂) →
      ∃ (report : Report) (failures : List (TypeName × SinkError)) (st' : σ) (outcome : Outcome),
        (Generator.generate ⟨settings.generator, m.graph⟩
            (ArtifactDirectory.sink fs ⟨outDir.getD settings.outDir⟩) m.fields).run st₂
          = (report, st')
          ∧ Accounts ⟨settings.generator, m.graph⟩ m.fields report failures
          ∧ (CommandLine.perform fs (.generate model config outDir)).run st = (outcome, st')
          ∧ (report.isClean = true → outcome.exitCode = 0 ∧ outcome.error = none)
          ∧ (report.isClean = false → outcome.exitCode = 1 ∧ outcome.error
            = some ("generation finished with "
              ++ (Nat.repr (report.rejectedFields + report.failedGroups)).toList ++ " error(s)"))
  := by
  constructor
  · intro W s g fields st
    obtain ⟨report, failures, st', hrun, haccounts⟩ := g.exists_accounts s fields st
    exact ⟨report, failures, st', hrun, haccounts, haccounts.length_diagnostics,
      haccounts.isError_of_mem, haccounts.isClean_iff, haccounts.errorCount_append⟩
  · intro F fs model config outDir settings m st st₁ st₂ hsettings hmodel
    obtain ⟨report, failures, st', hrun, haccounts⟩ := Generator.exists_accounts
      ⟨settings.generator, m.graph⟩ (ArtifactDirectory.sink fs ⟨outDir.getD settings.outDir⟩)
      m.fields st₂
    use report, failures, st', CommandLine.outcomeOf ⟨outDir.getD settings.outDir⟩ report, hrun,
      haccounts, CommandLine.run_perform_generate outDir hsettings hmodel hrun
    rw [CommandLine.outcomeOf_eq haccounts]
    constructor
    · intro hclean
      rw [if_pos hclean, if_pos hclean]
      exact ⟨rfl, rfl⟩
    · intro hclean
      rw [if_neg (Bool.eq_false_iff.1 hclean), if_neg (Bool.eq_false_iff.1 hclean)]
      exact ⟨rfl, rfl⟩

/-- A model with one field, which is private. -/
def draft : Model where
  fields :=
    [{ name := "count", declaredType := "int", owner := ⟨"a.Foo"⟩,
       modifiers := { isPrivate := true } }]

/-- The document of the model. -/
def draftDocument : Text := "[[],[[\"count\",\"int\",\"a.Foo\",null,[\"private\"]]]]"

/-- A directory that holds the document. -/
def desk : FileTree where
  entries := [([↑"model.json"], .file 0)]
  contents := [Utf8.encode draftDocument]

/-- The program ends with one error on such a model. -/
theorem draft_fails :
  (Settings.load FileTree.system "icicle.toml").run desk = (.ok {}, desk)
    ∧ (Model.load FileTree.system "model.json").run desk = (.ok draft, desk)
    ∧ ∃ outcome tree,
      (CommandLine.perform FileTree.system (.generate "model.json" "icicle.toml" none)).run desk
          = (outcome, tree)
        ∧ outcome.exitCode = 1 ∧ outcome.error = some ↑"generation finished with 1 error(s)"
  := by
  have hsettings : (Settings.load FileTree.system "icicle.toml").run desk = (.ok {}, desk) := rfl
  have hparse : Model.parse draftDocument = some draft := by
    decide +kernel
  have hread : (FileTree.system.read "model.json").run desk
      = (.ok (Utf8.encode draftDocument), desk) := rfl
  have htext : (FileTree.system.readText "model.json").run desk = (.ok draftDocument, desk) := by
    rw [FileSystem.readText, run_bind_eq hread]
    dsimp only
    rw [Utf8.decode_encode]
    rfl
  have hmodel : (Model.load FileTree.system "model.json").run desk = (.ok draft, desk) := by
    rw [Model.load, run_bind_eq htext]
    dsimp only
    rw [hparse]
    rfl
  obtain ⟨-, hprogram⟩ := @generate_balances FileTree
  obtain ⟨report, failures, tree, outcome, -, haccounts, hperform, -, herror⟩ :=
    hprogram FileTree.system "model.json" "icicle.toml" none _ _ _ _ _ hsettings hmodel
  have hpublished : published draft.fields = [] := by
    cbv
  have hnone := haccounts.failures_sublist
  rw [hpublished, List.sublist_nil, List.map_eq_nil_iff] at hnone
  have hrejected : report.rejectedFields = 1 := haccounts.rejectedFields_eq
  have hfailed : report.failedGroups = 0 := by
    rw [haccounts.failedGroups_eq, hnone]
    rfl
  have hclean : report.isClean = false := by
    rw [Report.isClean, hrejected]
    rfl
  rw [hrejected, hfailed] at herror
  exact ⟨hsettings, hmodel, outcome, tree, hperform, herror hclean⟩

end InstanceState
