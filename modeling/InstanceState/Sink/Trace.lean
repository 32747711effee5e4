import InstanceState.Sink.Basic

/-!
# Traces

The calls that a sink receives, in order.  Writers are numbered in the order in which they were
acquired, so that a trace tells which writer a call was about.
-/

namespace InstanceState

/-- One call of a sink, with its outcome. -/
inductive SinkCall where
  | acquired (artifact : Text) (serial : Nat)
  | refused (artifact : Text)
  /-- A write that took the octets. -/
  | accepted (serial : Nat) (octets : List UInt8)
  | failed (serial : Nat)
  /-- A commit by a writer that holds the octets, and whether it succeeded. -/
  | committed (artifact : Text) (serial : Nat) (octets : List UInt8) (success : Bool)
  | discarded (artifact : Text) (serial : Nat) (octets : List UInt8)
deriving DecidableEq, Repr

/-- A writer with its number and the octets that it took. -/
structure TracedWriter (W : Type) where
  writer : W
  serial : Nat
  octets : List UInt8 := []

/-- The number of writers that were acquired. -/
def acquiredCount (calls : List SinkCall) : Nat :=
  calls.countP fun
    | .acquired _ _ => true
    | _ => false

/-- The sink that also records each call. -/
def Sink.traced {m : Type → Type} [Monad m] {W : Type} (s : Sink m W) :
    Sink (StateT (List SinkCall) m) (TracedWriter W) where
  acquire artifact := do
    match ← (s.acquire artifact : m _) with
    | .error cause =>
      modify (· ++ [.refused artifact])
      pure (.error cause)
    | .ok writer =>
      let serial := acquiredCount (← get)
      modify (· ++ [.acquired artifact serial])
      pure (.ok { writer, serial })
  write w chunk := do
    match ← (s.write w.writer chunk : m _) with
    | (.error cause, writer) =>
      modify (· ++ [.failed w.serial])
      pure (.error cause, { w with writer })
    | (.ok n, writer) =>
      modify (· ++ [.accepted w.serial (chunk.take n.val)])
      pure (.ok n, { w with writer, octets := w.octets ++ chunk.take n.val })
  commit artifact w := do
    let result ← (s.commit artifact w.writer : m _)
    modify (· ++ [.committed artifact w.serial w.octets result.isOk])
    pure result
  discard artifact w := do
    (s.discard artifact w.writer : m _)
    modify (· ++ [.discarded artifact w.serial w.octets])

end InstanceState
