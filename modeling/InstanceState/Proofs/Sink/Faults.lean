import InstanceState.Proofs.Text.Octets
import InstanceState.Sink.Memory
import Mathlib.Data.List.Basic

/-!
# Sinks with faults

A buffer takes what it is given up to its limit, whatever the chunks are, and fails if something is
left.  So the sink with faults commits, under the name of an artifact, the text whose octets the
chunks make up, unless the artifact's fault happens, and then it leaves the shelf as it is and tells
the stage and the cause of the fault.
-/

namespace InstanceState

/-! ### Buffers with a limit -/

namespace Buffer

/-- The buffer with more octets. -/
def append (b : Buffer) (octets : List UInt8) : Buffer := { b with octets := b.octets ++ octets }

/-- What becomes of octets that are given to a buffer: it takes them all, or as many as its limit
allows. -/
def fill (b : Buffer) (octets : List UInt8) : Except Text Unit × Buffer :=
  match b.limit with
  | none => (.ok (), b.append octets)
  | some (limit, cause) =>
    if octets.length ≤ limit - b.octets.length then (.ok (), b.append octets)
    else (.error cause, b.append (octets.take (limit - b.octets.length)))

theorem append_append (b : Buffer) (s t : List UInt8) :
  (b.append s).append t = b.append (s ++ t)
  := by
  rw [append, append, append, List.append_assoc]

theorem append_nil (b : Buffer) :
  b.append [] = b
  := by
  rw [append, List.append_nil]

theorem fill_of_limit_eq_none {b : Buffer} (h : b.limit = none) (octets : List UInt8) :
  b.fill octets = (.ok (), b.append octets)
  := by
  rw [fill, h]

theorem fill_of_limit_eq_some {b : Buffer} {limit : Nat} {cause : Text}
    (h : b.limit = some (limit, cause)) (octets : List UInt8) :
  b.fill octets
    = if octets.length ≤ limit - b.octets.length then (.ok (), b.append octets)
      else (.error cause, b.append (octets.take (limit - b.octets.length)))
  := by
  rw [fill, h]

theorem fill_nil (b : Buffer) :
  b.fill [] = (.ok (), b)
  := by
  rcases Option.eq_none_or_eq_some b.limit with hlimit | ⟨l, hlimit⟩
  · rw [fill_of_limit_eq_none hlimit, append_nil]
  · rw [fill_of_limit_eq_some hlimit, List.length_nil, if_pos (Nat.zero_le _), append_nil]

/-- A buffer that took all octets has them at its end. -/
theorem fill_eq_append {b b' : Buffer} {octets : List UInt8}
    (h : b.fill octets = (.ok (), b')) :
  b' = b.append octets
  := by
  rcases Option.eq_none_or_eq_some b.limit with hlimit | ⟨l, hlimit⟩
  · rw [fill_of_limit_eq_none hlimit] at h
    exact (congrArg Prod.snd h).symm
  · rw [fill_of_limit_eq_some hlimit] at h
    split_ifs at h
    · exact (congrArg Prod.snd h).symm
    · exact absurd (congrArg Prod.fst h) (by simp)

/-- Octets that are all taken can be given before the others. -/
theorem fill_append_of_ok {b : Buffer} {s : List UInt8} (h : (b.fill s).1 = .ok ())
    (t : List UInt8) :
  b.fill (s ++ t) = (b.append s).fill t
  := by
  cases hlimit : b.limit with
  | none =>
    have hlimit' : (b.append s).limit = none := hlimit
    rw [fill_of_limit_eq_none hlimit, fill_of_limit_eq_none hlimit', append_append]
  | some l =>
    have hlimit' : (b.append s).limit = some l := hlimit
    rw [fill_of_limit_eq_some hlimit] at h
    have hs : s.length ≤ l.1 - b.octets.length := by
      by_contra hs
      rw [if_neg hs] at h
      contradiction
    have hroom : l.1 - (b.append s).octets.length = l.1 - b.octets.length - s.length := by
      rw [append, List.length_append, Nat.sub_add_eq]
    rw [fill_of_limit_eq_some hlimit, fill_of_limit_eq_some hlimit', hroom, List.length_append,
      append_append, append_append, List.take_append, List.take_of_length_le hs]
    congr 1
    rw [eq_iff_iff]
    omega

/-- Nothing more is taken after a failure. -/
theorem fill_append_of_error {b : Buffer} {s : List UInt8} {cause : Text}
    (h : (b.fill s).1 = .error cause) (t : List UInt8) :
  b.fill (s ++ t) = b.fill s
  := by
  cases hlimit : b.limit with
  | none =>
    rw [fill_of_limit_eq_none hlimit] at h
    contradiction
  | some l =>
    rw [fill_of_limit_eq_some hlimit] at h
    have hs : ¬ s.length ≤ l.1 - b.octets.length := by
      intro hs
      rw [if_pos hs] at h
      contradiction
    have hst : ¬ (s ++ t).length ≤ l.1 - b.octets.length := by
      rw [List.length_append]
      omega
    rw [fill_of_limit_eq_some hlimit, fill_of_limit_eq_some hlimit, if_neg hs, if_neg hst,
      List.take_append_of_le_length (Nat.le_of_not_le hs)]

variable {m : Type → Type} [Monad m] [LawfulMonad m]

omit [LawfulMonad m] in
theorem write_of_accept_eq_ok {b : Buffer} {chunk : List UInt8} {n : Accepted chunk}
    (h : b.accept chunk = .ok n) :
  (write b chunk : m _) = pure (.ok n, b.append (chunk.take n.val))
  := by
  rw [write, h]
  rfl

omit [LawfulMonad m] in
theorem write_of_accept_eq_error {b : Buffer} {chunk : List UInt8} {cause : Text}
    (h : b.accept chunk = .error cause) :
  (write b chunk : m _) = pure (.error cause, b)
  := by
  rw [write, h]

/-- A buffer accepts octets that it has room for, or fails because there is no room. -/
theorem accept_cases (b : Buffer) {chunk : List UInt8} (h : chunk ≠ []) :
  (∃ n, b.accept chunk = .ok n ∧ (b.fill (chunk.take n.val)).1 = .ok ())
    ∨ ∃ cause, b.accept chunk = .error cause ∧ b.fill chunk = (.error cause, b)
  := by
  rcases Option.eq_none_or_eq_some b.limit with hlimit | ⟨l, hlimit⟩
  · left
    use .whole chunk
    rw [accept, hlimit, fill_of_limit_eq_none hlimit]
    exact ⟨rfl, rfl⟩
  · rw [accept, hlimit, fill_of_limit_eq_some hlimit]
    by_cases hroom : 0 < l.1 - b.octets.length
    · left
      simp only [hroom, true_or, dite_true]
      refine ⟨_, rfl, ?_⟩
      rw [fill_of_limit_eq_some hlimit, if_pos]
      rw [List.length_take, Nat.min_assoc]
      apply Nat.min_le_left
    · right
      have hchunk : 0 < chunk.length := List.length_pos_iff.2 h
      use l.2
      have hfull : l.1 - b.octets.length = 0 := Nat.eq_zero_of_not_pos hroom
      rw [hfull, if_neg (by omega), List.take_zero, append_nil]
      simp [h, hfull]

theorem writeAll_eq_fill (b : Buffer) (chunk : List UInt8) :
  (writeAll write b chunk : m _) = pure (b.fill chunk)
  := by
  induction b, chunk using writeAll.induct with
  | case1 b => rw [writeAll, fill_nil]
  | case2 b x rest ih =>
    rw [writeAll]
    obtain ⟨n, haccept, hfill⟩ | ⟨cause, haccept, hfill⟩ :=
      b.accept_cases (List.cons_ne_nil x rest)
    · rw [write_of_accept_eq_ok haccept, pure_bind]
      dsimp only
      rw [ih, ← fill_append_of_ok hfill, List.take_append_drop]
    · rw [write_of_accept_eq_error haccept, pure_bind, hfill]

/-- Chunks that are written in order are taken as one. -/
theorem writeChunks_eq_fill (b : Buffer) (chunks : List (List UInt8)) :
  (writeChunks write b chunks : m _) = pure (b.fill chunks.flatten)
  := by
  induction chunks generalizing b with
  | nil => rw [writeChunks, List.flatten_nil, fill_nil]
  | cons chunk chunks ih =>
    rw [writeChunks, writeAll_eq_fill, pure_bind, List.flatten_cons]
    rcases hfill : b.fill chunk with ⟨cause | ⟨⟩, b'⟩
    · dsimp only
      rw [fill_append_of_error (congrArg Prod.fst hfill), hfill]
    · dsimp only
      rw [ih, fill_eq_append hfill, fill_append_of_ok (congrArg Prod.fst hfill)]

end Buffer

/-! ### The sink -/

/-- Whether a fault happens when a text is published: one of writing happens only if there are more
octets than are taken before. -/
def Fault.fires (fault : Fault) (source : Text) : Bool :=
  fault.stage ≠ .write || fault.after < (Utf8.encode source).length

namespace Shelf

/-- The fault that happens when an artifact is published, if there is one. -/
def fault? (faults : Text → Option Fault) (artifact source : Text) : Option Fault :=
  (faults artifact).filter fun fault => fault.fires source

variable {faults : Text → Option Fault} {artifact : Text} {b b' : Buffer}
  {chunks : List (List UInt8)}

theorem publish_of_fill_eq_error (hacquire : (sink faults).acquire artifact = pure (.ok b))
    {cause : Text} (hfill : b.fill chunks.flatten = (.error cause, b')) (shelf : Shelf) :
  ((sink faults).publish artifact chunks).run shelf = (.error ⟨.write, artifact, cause⟩, shelf)
  := by
  have hwrite : (writeChunks (sink faults).write b chunks : StateM Shelf _)
      = pure (.error cause, b') :=
    (b.writeChunks_eq_fill chunks).trans (congrArg pure hfill)
  rw [Sink.publish, hacquire, pure_bind]
  dsimp only
  rw [hwrite, pure_bind]
  rfl

theorem publish_of_fill_eq_ok (hacquire : (sink faults).acquire artifact = pure (.ok b))
    (hfill : b.fill chunks.flatten = (.ok (), b')) {shelf shelf' : Shelf}
    {result : Except Text Unit}
    (hcommit : ((sink faults).commit artifact b').run shelf = (result, shelf')) :
  ((sink faults).publish artifact chunks).run shelf
    = (result.mapError (SinkError.mk .commit artifact), shelf')
  := by
  have hwrite : (writeChunks (sink faults).write b chunks : StateM Shelf _)
      = pure (.ok (), b') :=
    (b.writeChunks_eq_fill chunks).trans (congrArg pure hfill)
  rw [Sink.publish, hacquire, pure_bind]
  dsimp only
  rw [hwrite, pure_bind]
  dsimp only
  rw [StateT.run_bind, hcommit]
  cases result <;> rfl

/-- Octets of a text are committed under the name of an artifact whose commit has no fault. -/
theorem commit_of_octets (hstage : ∀ fault, faults artifact = some fault → fault.stage ≠ .commit)
    {text : Text} (hb : b.octets = Utf8.encode text) (shelf : Shelf) :
  ((sink faults).commit artifact b).run shelf = (.ok (), shelf.insert artifact text)
  := by
  rcases hfault : faults artifact with _ | ⟨⟨⟩, after, cause⟩
  case some.commit => exact absurd rfl (hstage _ hfault)
  all_goals
    simp only [sink, hfault, hb, Utf8.decode_encode]
    rfl

/-- A publication commits the text that the chunks encode, unless a fault happens, and then it
leaves the shelf as it is. -/
theorem publish_sink (faults : Text → Option Fault) (artifact : Text)
    {chunks : List (List UInt8)} {text : Text} (h : chunks.flatten = Utf8.encode text)
    (shelf : Shelf) :
  ((sink faults).publish artifact chunks).run shelf
    = match fault? faults artifact text with
      | some fault => (.error ⟨fault.stage, artifact, fault.cause⟩, shelf)
      | none => (.ok (), shelf.insert artifact text)
  := by
  rcases hfault : faults artifact with _ | ⟨⟨⟩, after, cause⟩
  case none =>
    have hacquire : (sink faults).acquire artifact = pure (.ok {}) := by
      simp only [sink, hfault]
    rw [publish_of_fill_eq_ok hacquire rfl (commit_of_octets (by simp [hfault]) h shelf), fault?,
      hfault]
    rfl
  case some.create =>
    have hacquire : (sink faults).acquire artifact = pure (.error cause) := by
      simp only [sink, hfault]
    rw [Sink.publish, hacquire, fault?, hfault]
    rfl
  case some.write =>
    have hacquire : (sink faults).acquire artifact
        = pure (.ok { limit := some (after, cause) }) := by
      simp only [sink, hfault]
    have hfill := Buffer.fill_of_limit_eq_some (b := { limit := some (after, cause) }) rfl
      chunks.flatten
    rw [fault?, hfault, Option.filter_some]
    by_cases hroom : chunks.flatten.length ≤ after
    · have hfires : Fault.fires ⟨.write, after, cause⟩ text = false := by
        simpa [Fault.fires, ← h] using hroom
      rw [publish_of_fill_eq_ok hacquire (hfill.trans (if_pos hroom))
        (commit_of_octets (by simp [hfault]) h shelf), hfires]
      rfl
    · have hfires : Fault.fires ⟨.write, after, cause⟩ text = true := by
        simpa [Fault.fires, ← h] using hroom
      rw [publish_of_fill_eq_error hacquire (hfill.trans (if_neg hroom)), hfires]
      rfl
  case some.commit =>
    have hacquire : (sink faults).acquire artifact = pure (.ok {}) := by
      simp only [sink, hfault]
    have hcommit : ((sink faults).commit artifact { octets := chunks.flatten }).run shelf
        = (.error cause, shelf) := by
      simp only [sink, hfault]
      rfl
    rw [publish_of_fill_eq_ok hacquire rfl hcommit, fault?, hfault]
    rfl

end Shelf

end InstanceState
