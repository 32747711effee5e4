import InstanceState.Roster
import InstanceState.Sink.Basic

/-!
# Sinks in memory

A sink that keeps committed artifacts by name.  It can be given faults: an artifact whose
creation, writing or commit is to fail.
-/

namespace InstanceState

/-! ### Buffers -/

/-- The octets that a writer took, and the most that it takes in all, with the cause of the
failure that follows. -/
structure Buffer where
  octets : List UInt8 := []
  limit : Option (Nat × Text) := none
deriving DecidableEq, Repr

namespace Buffer

/-- The octets that a buffer takes from a chunk. -/
def accept (b : Buffer) (chunk : List UInt8) : Except Text (Accepted chunk) :=
  match b.limit with
  | none => .ok (.whole chunk)
  | some (limit, cause) =>
    if h : 0 < limit - b.octets.length ∨ chunk = [] then
      .ok ⟨min (limit - b.octets.length) chunk.length, Nat.min_le_right _ _, fun hc =>
        Nat.lt_min.2 ⟨h.resolve_right hc, List.length_pos_iff.2 hc⟩⟩
    else .error cause

/-- One write to a buffer. -/
def write {m : Type → Type} [Monad m] : WriteCall m Buffer := fun b chunk =>
  match b.accept chunk with
  | .error cause => pure (.error cause, b)
  | .ok n => pure (.ok n, { b with octets := b.octets ++ chunk.take n.val })

end Buffer

/-! ### The sink -/

/-- A failure that is to happen: its stage, its cause, and for a write the number of octets that
are taken before. -/
structure Fault where
  stage : Stage
  after : Nat := 0
  cause : Text
deriving DecidableEq, Repr

/-- The committed artifacts, by name. -/
abbrev Shelf : Type := Roster Text

namespace Shelf

/-- The sink that commits to a shelf.  A commit of octets that are no text fails. -/
def sink (faults : Text → Option Fault) : Sink (StateM Shelf) Buffer where
  acquire artifact := do
    match faults artifact with
    | some ⟨.create, _, cause⟩ => pure (.error cause)
    | some ⟨.write, after, cause⟩ => pure (.ok { limit := some (after, cause) })
    | _ => pure (.ok {})
  write := Buffer.write
  commit artifact b := do
    match faults artifact with
    | some ⟨.commit, _, cause⟩ => pure (.error cause)
    | _ =>
      match Utf8.decode b.octets with
      | .error malformed => pure (.error malformed.message)
      | .ok text =>
        modify fun shelf => shelf.insert artifact text
        pure (.ok ())
  discard _ _ := pure ()

/-- The sink without faults. -/
def reliable : Sink (StateM Shelf) Buffer := sink fun _ => none

end Shelf

end InstanceState
