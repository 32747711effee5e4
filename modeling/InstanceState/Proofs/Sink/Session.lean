import InstanceState.Sink.Trace
import Mathlib.Data.List.Basic
import Mathlib.Data.List.Infix

/-!
# Sessions

A session is what the calls of a sink come to for one artifact: the sink refuses a writer, or a
write fails and the writer is discarded, or the writer takes the whole source and is committed.
`transcript` gives the calls of sessions that follow one another.  Each of its writers is closed
before the next one is acquired, and only whole sources are committed.
-/

namespace InstanceState

/-! ### Sessions and their calls -/

/-- How the production of an artifact of the given source went on, with the pieces in which the
source was taken. -/
inductive Course (source : List UInt8) where
  | refused (cause : Text)
  /-- A write failed when something was left to write. -/
  | abandoned (pieces : List (List UInt8)) (left : List UInt8) (left_ne_nil : left ≠ [])
      (split : pieces.flatten ++ left = source) (cause : Text)
  /-- Everything was written and then committed, with the given result. -/
  | concluded (pieces : List (List UInt8)) (whole : pieces.flatten = source)
      (result : Except Text Unit)

/-- The production of one artifact. -/
structure Session where
  artifact : Text
  source : List UInt8
  course : Course source

namespace Session

/-- What a session is about: the artifact and its source. -/
def subject (s : Session) : Text × List UInt8 := (s.artifact, s.source)

/-- The calls by which a writer takes the pieces. -/
def acceptances (serial : Nat) (pieces : List (List UInt8)) : List SinkCall :=
  pieces.map (.accepted serial)

/-- The calls of a session, whose writer is given the serial number. -/
def calls (serial : Nat) (s : Session) : List SinkCall :=
  match s.course with
  | .refused _ => [.refused s.artifact]
  | .abandoned pieces _ _ _ _ =>
    .acquired s.artifact serial :: (acceptances serial pieces
      ++ [.failed serial, .discarded s.artifact serial pieces.flatten])
  | .concluded pieces _ result =>
    .acquired s.artifact serial :: (acceptances serial pieces
      ++ [.committed s.artifact serial s.source result.isOk])

/-- The serial numbers of the writers of a session. -/
def writers (serial : Nat) (s : Session) : List Nat :=
  match s.course with
  | .refused _ => []
  | _ => [serial]

/-- What the session comes to. -/
def outcome (s : Session) : Except SinkError Unit :=
  match s.course with
  | .refused cause => .error ⟨.create, s.artifact, cause⟩
  | .abandoned _ _ _ _ cause => .error ⟨.write, s.artifact, cause⟩
  | .concluded _ _ result => result.mapError fun cause => ⟨.commit, s.artifact, cause⟩

/-- A session that fails tells the artifact that it is about. -/
theorem artifact_of_outcome {s : Session} {e : SinkError} (h : s.outcome = .error e) :
  e.artifact = s.artifact
  := by
  rw [outcome] at h
  cases hcourse : s.course with
  | refused cause =>
    rw [hcourse] at h
    cases h
    rfl
  | abandoned pieces left left_ne_nil split cause =>
    rw [hcourse] at h
    cases h
    rfl
  | concluded pieces whole result =>
    rw [hcourse] at h
    cases result with
    | ok => contradiction
    | error cause =>
      cases h
      rfl

/-- The artifact and the octets that a session commits, if it does. -/
def committed? (s : Session) : Option (Text × List UInt8) :=
  match s.course with
  | .concluded _ _ _ => some s.subject
  | _ => none

end Session

/-- The calls of sessions one after the other, the first writer of which has the given serial
number. -/
def transcript (serial : Nat) : List Session → List SinkCall
  | [] => []
  | s :: rest => s.calls serial ++ transcript (serial + (s.writers serial).length) rest

/-! ### What a list of calls tells -/

namespace SinkCall

/-- The writer that a call acquires. -/
def opens? : SinkCall → Option Nat
  | .acquired _ serial => some serial
  | _ => none

/-- The writer that a call closes, by a commit or by a discard. -/
def closes? : SinkCall → Option Nat
  | .committed _ serial _ _ => some serial
  | .discarded _ serial _ => some serial
  | _ => none

/-- The artifact and the octets of a commit. -/
def commits? : SinkCall → Option (Text × List UInt8)
  | .committed artifact _ octets _ => some (artifact, octets)
  | _ => none

/-- The artifact of a commit that succeeds. -/
def publishes? : SinkCall → Option Text
  | .committed artifact _ _ true => some artifact
  | _ => none

/-- The acquired writers, in order. -/
def opened (calls : List SinkCall) : List Nat := calls.filterMap opens?

/-- The closed writers, in order. -/
def closed (calls : List SinkCall) : List Nat := calls.filterMap closes?

/-- The writers that are acquired and not yet closed. -/
def live (calls : List SinkCall) : List Nat :=
  (opened calls).filter fun serial => serial ∉ closed calls

theorem length_opened (calls : List SinkCall) :
  (opened calls).length = acquiredCount calls
  := by
  rw [opened, List.length_filterMap_eq_countP, acquiredCount]
  congr
  funext call
  cases call <;> rfl

theorem opened_append (calls rest : List SinkCall) :
  opened (calls ++ rest) = opened calls ++ opened rest
  := List.filterMap_append

theorem closed_append (calls rest : List SinkCall) :
  closed (calls ++ rest) = closed calls ++ closed rest
  := List.filterMap_append

/-- Calls that close what they open leave nothing live. -/
theorem live_append_sublist {calls : List SinkCall} (h : opened calls = closed calls)
    (rest : List SinkCall) :
  (live (calls ++ rest)).Sublist (live rest)
  := by
  have hnone : (opened calls).filter (fun serial => serial ∉ closed calls ++ closed rest) = [] := by
    rw [List.filter_eq_nil_iff, h]
    intro serial hserial
    simp [hserial]
  rw [live, opened_append, closed_append, List.filter_append, hnone, List.nil_append, live]
  apply List.monotone_filter_right
  intro serial hserial
  simp_all

end SinkCall

/-! ### The calls of a session -/

namespace Session

open SinkCall

/-- The calls of a session without those by which its writer takes pieces. -/
def frame (serial : Nat) (s : Session) : List SinkCall :=
  match s.course with
  | .refused _ => [.refused s.artifact]
  | .abandoned pieces _ _ _ _ =>
    [.acquired s.artifact serial, .failed serial, .discarded s.artifact serial pieces.flatten]
  | .concluded _ _ result =>
    [.acquired s.artifact serial, .committed s.artifact serial s.source result.isOk]

theorem filterMap_calls {β : Type} {f : SinkCall → Option β}
    (h : ∀ serial octets, f (.accepted serial octets) = none) (serial : Nat) (s : Session) :
  (s.calls serial).filterMap f = (s.frame serial).filterMap f
  := by
  have haccept : ∀ pieces, (acceptances serial pieces).filterMap f = [] := by
    intro pieces
    rw [acceptances, List.filterMap_map, List.filterMap_eq_nil_iff]
    intro piece _
    apply h
  rw [calls, frame]
  split <;> simp only [List.filterMap_cons, List.filterMap_append, haccept, List.nil_append]

theorem opened_calls (serial : Nat) (s : Session) :
  opened (s.calls serial) = s.writers serial
  := by
  rw [opened, filterMap_calls (fun _ _ => rfl)]
  rcases s with ⟨_, _, _ | _ | _⟩ <;> rfl

theorem closed_calls (serial : Nat) (s : Session) :
  closed (s.calls serial) = s.writers serial
  := by
  rw [closed, filterMap_calls (fun _ _ => rfl)]
  rcases s with ⟨_, _, _ | _ | _⟩ <;> rfl

theorem commits_calls (serial : Nat) (s : Session) :
  (s.calls serial).filterMap commits? = s.committed?.toList
  := by
  rw [filterMap_calls (fun _ _ => rfl)]
  rcases s with ⟨_, _, _ | _ | _⟩ <;> rfl

theorem publishes_calls (serial : Nat) (s : Session) :
  (s.calls serial).filterMap publishes? = if s.outcome.isOk then [s.artifact] else []
  := by
  rw [filterMap_calls (fun _ _ => rfl)]
  rcases s with ⟨_, _, _ | _ | ⟨_, _, _ | _⟩⟩ <;> rfl

theorem length_writers_le (serial : Nat) (s : Session) :
  (s.writers serial).length ≤ 1
  := by
  rcases s with ⟨_, _, _ | _ | _⟩
  · exact Nat.zero_le 1
  · exact Nat.le_refl 1
  · exact Nat.le_refl 1

theorem writers_eq (serial : Nat) (s : Session) :
  s.writers serial = List.range' serial (s.writers serial).length
  := by
  rcases s with ⟨_, _, _ | _ | _⟩ <;> rfl

theorem acquiredCount_append_calls (calls : List SinkCall) (serial : Nat) (s : Session) :
  acquiredCount (calls ++ s.calls serial) = acquiredCount calls + (s.writers serial).length
  := by
  rw [← length_opened, opened_append, List.length_append, length_opened, opened_calls]

end Session

/-! ### The calls of sessions -/

section Transcript

open SinkCall

/-- The writers are acquired and closed in the order of their serial numbers, each once. -/
theorem opened_transcript (serial : Nat) (sessions : List Session) :
  ∃ n, opened (transcript serial sessions) = List.range' serial n
    ∧ closed (transcript serial sessions) = List.range' serial n
  := by
  induction sessions generalizing serial with
  | nil => exact ⟨0, rfl, rfl⟩
  | cons s rest ih =>
    obtain ⟨n, hopened, hclosed⟩ := ih (serial + (s.writers serial).length)
    use (s.writers serial).length + n
    rw [transcript, opened_append, closed_append, Session.opened_calls, Session.closed_calls,
      hopened, hclosed, s.writers_eq, List.length_range', List.range'_append_1]
    exact ⟨rfl, rfl⟩

/-- At no time is more than one writer live. -/
theorem length_live_le (serial : Nat) (sessions : List Session) {calls : List SinkCall}
    (h : calls <+: transcript serial sessions) :
  (live calls).length ≤ 1
  := by
  induction sessions generalizing serial calls with
  | nil =>
    rw [List.prefix_nil.1 h]
    exact Nat.zero_le 1
  | cons s rest ih =>
    rcases List.prefix_or_prefix_of_prefix h (List.prefix_append _ _) with hcalls | ⟨later, rfl⟩
    · have hopened : opened calls <+: s.writers serial := by
        rw [← s.opened_calls]
        apply hcalls.filterMap
      calc (live calls).length
        _ ≤ (opened calls).length := List.length_filter_le _ _
        _ ≤ (s.writers serial).length := hopened.length_le
        _ ≤ 1 := s.length_writers_le serial
    · have hlive := live_append_sublist
        ((s.opened_calls serial).trans (s.closed_calls serial).symm) later
      apply hlive.length_le.trans
      apply ih _ ((List.prefix_append_right_inj _).1 h)

theorem commits_transcript (serial : Nat) (sessions : List Session) :
  (transcript serial sessions).filterMap commits? = sessions.filterMap Session.committed?
  := by
  induction sessions generalizing serial with
  | nil => rfl
  | cons s rest ih =>
    rw [transcript, List.filterMap_append, s.commits_calls, ih, List.filterMap_cons]
    cases s.committed? <;> rfl

theorem publishes_transcript (serial : Nat) (sessions : List Session) :
  (transcript serial sessions).filterMap publishes?
    = (sessions.filter fun s => s.outcome.isOk).map Session.artifact
  := by
  induction sessions generalizing serial with
  | nil => rfl
  | cons s rest ih =>
    rw [transcript, List.filterMap_append, s.publishes_calls, ih, List.filter_cons]
    split <;> rfl

/-- What is committed are whole sources, in the order of the sessions. -/
theorem committed_sublist (sessions : List Session) :
  (sessions.filterMap Session.committed?).Sublist (sessions.map Session.subject)
  := by
  induction sessions with
  | nil => exact .slnil
  | cons s rest ih =>
    rcases s with ⟨_, _, _ | _ | _⟩
    · exact ih.cons _
    · exact ih.cons _
    · exact ih.cons_cons _

end Transcript

end InstanceState
