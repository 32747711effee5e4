import InstanceState.Proofs.Runs
import InstanceState.Proofs.Sink.Session

/-!
# Runs of a recorded sink

A sink over any state machine goes through one session for each artifact that is produced, and its
record grows by the calls of that session.  Recording a sink changes neither its answers nor its
states.
-/

namespace InstanceState

/-! ### Runs step by step -/

section Runs

variable {σ α β : Type} {st st' : σ} {a : α} {calls calls' : List SinkCall}

theorem run_run_bind_eq {x : StateT (List SinkCall) (StateM σ) α}
    (h : (x.run calls).run st = ((a, calls'), st'))
    (f : α → StateT (List SinkCall) (StateM σ) β) :
  ((x >>= f).run calls).run st = ((f a).run calls').run st'
  := by
  rw [StateT.run_bind, run_bind_eq h]

theorem run_run_lift_eq {x : StateM σ α} (h : x.run st = (a, st')) :
  ((liftM x : StateT (List SinkCall) (StateM σ) α).run calls).run st = ((a, calls), st')
  := run_bind_eq h fun a => pure (a, calls)

end Runs

/-! ### Single operations -/

namespace Sink

variable {σ W : Type} (s : Sink (StateM σ) W) {st st' : σ} (calls : List SinkCall)

theorem run_traced_acquire_error {artifact cause : Text}
    (h : (s.acquire artifact).run st = (.error cause, st')) :
  ((s.traced.acquire artifact).run calls).run st
    = ((.error cause, calls ++ [.refused artifact]), st')
  := by
  rw [traced, run_run_bind_eq (run_run_lift_eq h)]
  rfl

theorem run_traced_acquire_ok {artifact : Text} {writer : W}
    (h : (s.acquire artifact).run st = (.ok writer, st')) :
  ((s.traced.acquire artifact).run calls).run st
    = ((.ok { writer, serial := acquiredCount calls },
        calls ++ [.acquired artifact (acquiredCount calls)]), st')
  := by
  rw [traced, run_run_bind_eq (run_run_lift_eq h)]
  rfl

theorem run_traced_write_error {w : TracedWriter W} {writer : W} {chunk : List UInt8}
    {cause : Text} (h : (s.write w.writer chunk).run st = ((.error cause, writer), st')) :
  ((s.traced.write w chunk).run calls).run st
    = (((.error cause, { w with writer }), calls ++ [.failed w.serial]), st')
  := by
  rw [traced, run_run_bind_eq (run_run_lift_eq h)]
  rfl

theorem run_traced_write_ok {w : TracedWriter W} {writer : W} {chunk : List UInt8}
    {n : Accepted chunk} (h : (s.write w.writer chunk).run st = ((.ok n, writer), st')) :
  ((s.traced.write w chunk).run calls).run st
    = (((.ok n, { w with writer, octets := w.octets ++ chunk.take n.val }),
        calls ++ [.accepted w.serial (chunk.take n.val)]), st')
  := by
  rw [traced, run_run_bind_eq (run_run_lift_eq h)]
  rfl

theorem run_traced_commit {artifact : Text} {w : TracedWriter W} {result : Except Text Unit}
    (h : (s.commit artifact w.writer).run st = (result, st')) :
  ((s.traced.commit artifact w).run calls).run st
    = ((result, calls ++ [.committed artifact w.serial w.octets result.isOk]), st')
  := by
  rw [traced, run_run_bind_eq (run_run_lift_eq h)]
  rfl

theorem run_traced_discard {artifact : Text} {w : TracedWriter W}
    (h : (s.discard artifact w.writer).run st = ((), st')) :
  ((s.traced.discard artifact w).run calls).run st
    = (((), calls ++ [.discarded artifact w.serial w.octets]), st')
  := by
  rw [traced, run_run_bind_eq (run_run_lift_eq h)]
  rfl

/-! ### Writing -/

/-- The record of a writer that was to take the octets: it took them in pieces, or it took only
some of them and then a write failed. -/
inductive Writing (serial : Nat) (octets : List UInt8) :
    Except Text Unit → List UInt8 → List SinkCall → Prop where
  | whole (pieces : List (List UInt8)) (h : pieces.flatten = octets) :
    Writing serial octets (.ok ()) octets (Session.acceptances serial pieces)
  | partly (pieces : List (List UInt8)) (left : List UInt8) (hleft : left ≠ [])
      (h : pieces.flatten ++ left = octets) (cause : Text) :
    Writing serial octets (.error cause) pieces.flatten
      (Session.acceptances serial pieces ++ [.failed serial])

namespace Writing

variable {serial : Nat} {octets octets' taken : List UInt8} {result : Except Text Unit}
  {new : List SinkCall}

/-- A piece that is taken before. -/
theorem cons (piece : List UInt8) (h : Writing serial octets result taken new) :
  Writing serial (piece ++ octets) result (piece ++ taken) (.accepted serial piece :: new)
  := by
  cases h with
  | whole pieces h => exact .whole (piece :: pieces) (by rw [List.flatten_cons, h])
  | partly pieces left hleft h cause =>
    exact .partly (piece :: pieces) left hleft (by rw [List.flatten_cons, List.append_assoc, h])
      cause

/-- Pieces that are taken before. -/
theorem append (pieces : List (List UInt8)) (h : Writing serial octets result taken new) :
  Writing serial (pieces.flatten ++ octets) result (pieces.flatten ++ taken)
    (Session.acceptances serial pieces ++ new)
  := by
  induction pieces with
  | nil => exact h
  | cons piece pieces ih =>
    rw [List.flatten_cons, List.append_assoc, List.append_assoc]
    apply ih.cons

end Writing

/-- Writing a chunk is recorded in full, and goes on as it does without a record. -/
theorem exists_writeAll (w : TracedWriter W) (chunk : List UInt8) (st : σ) :
  ∃ result writer st' taken new,
    (writeAll s.write w.writer chunk).run st = ((result, writer), st')
      ∧ ((writeAll s.traced.write w chunk).run calls).run st
        = (((result, ⟨writer, w.serial, w.octets ++ taken⟩), calls ++ new), st')
      ∧ Writing w.serial chunk result taken new
  := by
  induction w, chunk using writeAll.induct generalizing calls st with
  | case1 w =>
    use .ok (), w.writer, st, [], []
    rw [writeAll, writeAll, List.append_nil, List.append_nil]
    exact ⟨rfl, rfl, .whole [] rfl⟩
  | case2 w b rest ih =>
    rw [writeAll, writeAll]
    rcases h : (s.write w.writer (b :: rest)).run st with ⟨⟨cause | n, writer⟩, st₁⟩
    · use .error cause, writer, st₁, [], [.failed w.serial]
      rw [run_bind_eq h, run_run_bind_eq (s.run_traced_write_error calls h), List.append_nil]
      exact ⟨rfl, rfl, .partly [] (b :: rest) (List.cons_ne_nil _ _) rfl cause⟩
    · rw [run_bind_eq h, run_run_bind_eq (s.run_traced_write_ok calls h)]
      obtain ⟨result, writer', st', taken, new, hplain, htraced, hwriting⟩ := ih n
        { w with writer, octets := w.octets ++ (b :: rest).take n.val }
        (calls ++ [.accepted w.serial ((b :: rest).take n.val)]) st₁
      use result, writer', st', (b :: rest).take n.val ++ taken,
        .accepted w.serial ((b :: rest).take n.val) :: new
      rw [List.append_assoc, List.append_assoc, List.singleton_append] at htraced
      have hwhole := hwriting.cons ((b :: rest).take n.val)
      rw [List.take_append_drop] at hwhole
      exact ⟨hplain, htraced, hwhole⟩

/-- So is writing chunks one after the other. -/
theorem exists_writeChunks (w : TracedWriter W) (chunks : List (List UInt8)) (st : σ) :
  ∃ result writer st' taken new,
    (writeChunks s.write w.writer chunks).run st = ((result, writer), st')
      ∧ ((writeChunks s.traced.write w chunks).run calls).run st
        = (((result, ⟨writer, w.serial, w.octets ++ taken⟩), calls ++ new), st')
      ∧ Writing w.serial chunks.flatten result taken new
  := by
  induction chunks generalizing w calls st with
  | nil =>
    use .ok (), w.writer, st, [], []
    rw [writeChunks, writeChunks, List.append_nil, List.append_nil]
    exact ⟨rfl, rfl, .whole [] rfl⟩
  | cons chunk chunks ih =>
    obtain ⟨result, writer, st₁, taken, new, hplain, htraced, hwriting⟩ :=
      s.exists_writeAll calls w chunk st
    rw [writeChunks, writeChunks, run_bind_eq hplain, run_run_bind_eq htraced]
    cases hwriting with
    | partly pieces left hleft h cause =>
      use .error cause, writer, st₁, pieces.flatten,
        Session.acceptances w.serial pieces ++ [.failed w.serial]
      refine ⟨rfl, rfl, .partly pieces (left ++ chunks.flatten) ?_ ?_ cause⟩
      · simp [hleft]
      · rw [List.flatten_cons, ← h, List.append_assoc]
    | whole pieces h =>
      obtain ⟨result, writer', st', taken, new, hplain', htraced', hwriting'⟩ :=
        ih (calls ++ Session.acceptances w.serial pieces)
          ⟨writer, w.serial, w.octets ++ chunk⟩ st₁
      use result, writer', st', chunk ++ taken, Session.acceptances w.serial pieces ++ new
      rw [List.append_assoc, List.append_assoc] at htraced'
      have hwhole := hwriting'.append pieces
      rw [h] at hwhole
      exact ⟨hplain', htraced', hwhole⟩

/-! ### Artifacts -/

/-- An artifact is produced in one session, with or without a record. -/
theorem exists_publish (artifact : Text) (chunks : List (List UInt8)) (st : σ) :
  ∃ (session : Session) (st' : σ),
    session.subject = (artifact, chunks.flatten)
      ∧ (s.publish artifact chunks).run st = (session.outcome, st')
      ∧ ((s.traced.publish artifact chunks).run calls).run st
        = ((session.outcome, calls ++ session.calls (acquiredCount calls)), st')
  := by
  rw [publish, publish]
  rcases hacquire : (s.acquire artifact).run st with ⟨cause | writer, st₁⟩
  · use ⟨artifact, chunks.flatten, .refused cause⟩, st₁, rfl
    rw [run_bind_eq hacquire, run_run_bind_eq (s.run_traced_acquire_error calls hacquire)]
    exact ⟨rfl, rfl⟩
  · obtain ⟨result, writer', st₂, taken, new, hplain, htraced, hwriting⟩ :=
      s.exists_writeChunks (calls ++ [.acquired artifact (acquiredCount calls)])
        { writer, serial := acquiredCount calls } chunks st₁
    rw [run_bind_eq hacquire, run_run_bind_eq (s.run_traced_acquire_ok calls hacquire)]
    dsimp only
    rw [run_bind_eq hplain, run_run_bind_eq htraced]
    cases hwriting with
    | partly pieces left hleft h cause =>
      rcases hdiscard : (s.discard artifact writer').run st₂ with ⟨⟨⟩, st₃⟩
      use ⟨artifact, chunks.flatten, .abandoned pieces left hleft h cause⟩, st₃, rfl
      dsimp only
      rw [run_bind_eq hdiscard, run_run_bind_eq (s.run_traced_discard _ hdiscard)]
      simp only [List.append_assoc]
      exact ⟨rfl, rfl⟩
    | whole pieces h =>
      rcases hcommit : (s.commit artifact writer').run st₂ with ⟨result, st₃⟩
      use ⟨artifact, chunks.flatten, .concluded pieces h result⟩, st₃, rfl
      dsimp only
      rw [run_bind_eq hcommit, run_run_bind_eq (s.run_traced_commit _ hcommit)]
      simp only [List.append_assoc]
      cases result <;> exact ⟨rfl, rfl⟩

end Sink

end InstanceState
