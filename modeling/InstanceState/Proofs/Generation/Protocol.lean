import InstanceState.Proofs.Generation.Outcome
import InstanceState.Proofs.Sink.Traced

/-!
# The calls of a batch

Over any state machine as its sink, a batch goes through one session for each owner with a field to
keep, in the order of the owners.  So no two writers are live at once, every writer is closed, only
whole sources are committed, and the names in the report are those of the commits that succeed.
-/

namespace InstanceState

open Batch

namespace Generator

variable {σ W : Type} (g : Generator) (s : Sink (StateM σ) W)

/-- The artifact of a group and the octets of its source. -/
def subject (g : Generator) (group : Group) : Text × List UInt8 :=
  ((g.companion group).artifact, Utf8.encode (g.companion group).source)

/-- The artifact of an owner and the octets of its source, by what the batch says. -/
def subjectOf (g : Generator) (fields : List Field) (owner : TypeName) : Text × List UInt8 :=
  (g.artifactOf fields owner, Utf8.encode (g.companionOf fields owner).source)

/-- A group with fields is published in one session, whose outcome decides the report. -/
theorem exists_publishGroup (report : Report) {group : Group} (h : group.isEmpty = false)
    (calls : List SinkCall) (st : σ) :
  ∃ (session : Session) (report' : Report) (st' : σ),
    session.subject = g.subject group
      ∧ (g.publishGroup s report group).run st = (report', st')
      ∧ ((g.publishGroup s.traced report group).run calls).run st
        = ((report', calls ++ session.calls (acquiredCount calls)), st')
      ∧ report'.written
        = report.written ++ if session.outcome.isOk then [session.artifact] else []
  := by
  obtain ⟨session, st', hsubject, hplain, htraced⟩ :=
    s.exists_publish calls (g.companion group).artifact (g.companion group).chunks st
  rw [publishGroup, publishGroup, if_neg (Bool.eq_false_iff.1 h), if_neg (Bool.eq_false_iff.1 h)]
  dsimp only
  rw [run_bind_eq hplain, run_run_bind_eq htraced]
  rw [flatten_chunks] at hsubject
  cases houtcome : session.outcome with
  | ok =>
    refine ⟨session, _, st', hsubject, rfl, rfl, ?_⟩
    have hartifact : session.artifact = (g.companion group).artifact := congrArg Prod.fst hsubject
    rw [houtcome, hartifact]
    rfl
  | error e =>
    refine ⟨session, _, st', hsubject, rfl, rfl, ?_⟩
    rw [houtcome]
    exact (List.append_nil _).symm

/-- The groups with fields are published in one session each, in order. -/
theorem exists_publishGroups (report : Report) (groups : List Group) (calls : List SinkCall)
    (st : σ) :
  ∃ (sessions : List Session) (report' : Report) (st' : σ),
    sessions.map Session.subject = (groups.filter fun group => !group.isEmpty).map g.subject
      ∧ (g.publishGroups s report groups).run st = (report', st')
      ∧ ((g.publishGroups s.traced report groups).run calls).run st
        = ((report', calls ++ transcript (acquiredCount calls) sessions), st')
      ∧ report'.written
        = report.written ++ (sessions.filter fun s => s.outcome.isOk).map Session.artifact
  := by
  induction groups generalizing report calls st with
  | nil =>
    use [], report, st, rfl
    rw [publishGroups, publishGroups, transcript, List.append_nil, List.filter_nil, List.map_nil,
      List.append_nil]
    exact ⟨rfl, rfl, rfl⟩
  | cons group groups ih =>
    rw [publishGroups, publishGroups]
    cases h : group.isEmpty with
    | true =>
      obtain ⟨sessions, report', st', hsubjects, hplain, htraced, hwritten⟩ :=
        ih { report with skippedGroups := report.skippedGroups + 1 } calls st
      use sessions, report', st'
      rw [publishGroup, publishGroup, if_pos h, if_pos h, List.filter_cons, h]
      exact ⟨hsubjects, hplain, htraced, hwritten⟩
    | false =>
      obtain ⟨session, report₁, st₁, hsubject, hplain₁, htraced₁, hwritten₁⟩ :=
        g.exists_publishGroup s report h calls st
      obtain ⟨sessions, report', st', hsubjects, hplain, htraced, hwritten⟩ :=
        ih report₁ (calls ++ session.calls (acquiredCount calls)) st₁
      use session :: sessions, report', st'
      rw [run_bind_eq hplain₁, run_run_bind_eq htraced₁, List.filter_cons, h, transcript,
        ← List.append_assoc, ← Session.acquiredCount_append_calls]
      refine ⟨?_, hplain, htraced, ?_⟩
      · rw [List.map_cons, hsubject, hsubjects]
        rfl
      · rw [hwritten, hwritten₁, List.filter_cons, List.append_assoc]
        split <;> rfl

theorem subject_groupOf (fields : List Field) (owner : TypeName) :
  g.subject (g.groupOf fields owner) = g.subjectOf fields owner
  := by
  rw [subject, companion_groupOf]
  rfl

/-- The owners whose groups have fields are the published ones. -/
theorem subjects_groups_collect (fields : List Field) :
  ((g.collect fields).groups.values.filter fun group => !group.isEmpty).map g.subject
    = (published fields).map (g.subjectOf fields)
  := by
  rw [groups_collect, List.filter_map, List.map_map, published]
  have hempty : ((fun group : Group => !group.isEmpty) ∘ g.groupOf fields)
      = fun owner => !(kept fields owner).isEmpty := by
    funext owner
    rw [Function.comp_apply, isEmpty_groupOf]
  rw [hempty]
  apply List.map_congr_left
  intro owner _
  apply subject_groupOf

/-- The report of a batch over a sink from a state, and the calls that the sink receives. -/
def runTraced (fields : List Field) (st : σ) : (Report × List SinkCall) × σ :=
  ((g.generate s.traced fields).run []).run st

/-- A batch makes the calls of one session for each owner with a field to keep, in the order of the
owners, over any sink and from any state of it.  At no time is more than one writer live, the
writers are acquired in the order of their numbers and closed in that order, what is committed are
whole sources, and the report has the names of the commits that succeed. -/
theorem generate_follows_protocol (fields : List Field) (st : σ) :
  ∃ (sessions : List Session) (report : Report) (calls : List SinkCall) (st' : σ),
    (g.generate s fields).run st = (report, st')
      ∧ g.runTraced s fields st = ((report, calls), st')
      ∧ calls = transcript 0 sessions
      ∧ sessions.map Session.subject = (published fields).map (g.subjectOf fields)
      ∧ (∀ n, (SinkCall.live (calls.take n)).length ≤ 1)
      ∧ (∃ n, SinkCall.opened calls = List.range n ∧ SinkCall.closed calls = List.range n)
      ∧ (calls.filterMap SinkCall.commits?).Sublist ((published fields).map (g.subjectOf fields))
      ∧ report.written = calls.filterMap SinkCall.publishes?
  := by
  obtain ⟨sessions, report, st', hsubjects, hplain, htraced, hwritten⟩ :=
    g.exists_publishGroups s
      { rejectedFields := (g.collect fields).rejections.length
        diagnostics := (g.collect fields).rejections.map .ofFieldError }
      (g.collect fields).groups.values [] st
  rw [subjects_groups_collect] at hsubjects
  use sessions, report, transcript 0 sessions, st', hplain, htraced, rfl, hsubjects
  refine ⟨?_, ?_, ?_, ?_⟩
  · intro n
    apply length_live_le 0 sessions (List.take_prefix n _)
  · obtain ⟨n, h⟩ := opened_transcript 0 sessions
    use n
    rw [List.range_eq_range']
    exact h
  · rw [commits_transcript, ← hsubjects]
    apply committed_sublist
  · rw [publishes_transcript]
    exact hwritten

end Generator

end InstanceState
