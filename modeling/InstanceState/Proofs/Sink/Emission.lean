import InstanceState.Proofs.Generation.Ledger
import InstanceState.Proofs.Runs
import InstanceState.Proofs.Sink.Faults
import Mathlib.Data.List.Infix

/-!
# Writing to any writer

A writer may take as little of a chunk as one octet, and it may fail at any call.  The source of a
companion is written by many calls, and what a writer took by the first of them, however many, is
always a beginning of the source: a chunk is given again from where the writer stopped, and nothing
is written after a failure.  A writer that takes a fixed number of octets therefore ends up with so
many of the first octets, or with all.
-/

namespace InstanceState

/-! ### Recorded writers -/

/-- What came of one call of a writer: the octets that it took, or the cause of its failure. -/
abbrev WriteOutcome : Type := Except Text (List UInt8)

/-- A writer and what came of its calls, in order. -/
structure RecordedWriter (W : Type) where
  writer : W
  calls : List WriteOutcome := []

/-- The writes that are also recorded. -/
def WriteCall.recorded {m : Type → Type} [Monad m] {W : Type} (write : WriteCall m W) :
    WriteCall m (RecordedWriter W) := fun w chunk => do
  match ← write w.writer chunk with
  | (.error cause, writer) => pure (.error cause, ⟨writer, w.calls ++ [.error cause]⟩)
  | (.ok n, writer) => pure (.ok n, ⟨writer, w.calls ++ [.ok (chunk.take n.val)]⟩)

/-- The call that fails, if writing failed. -/
def failedCall : Except Text Unit → List WriteOutcome
  | .ok () => []
  | .error cause => [.error cause]

section

variable {σ W : Type} {write : WriteCall (StateM σ) W} {w w' : W} {st st' : σ}
  {chunk : List UInt8} (calls : List WriteOutcome)

theorem run_recorded_error {cause : Text}
    (h : (write w chunk).run st = ((.error cause, w'), st')) :
  (write.recorded ⟨w, calls⟩ chunk).run st = ((.error cause, ⟨w', calls ++ [.error cause]⟩), st')
  := by
  rw [WriteCall.recorded, run_bind_eq h]
  rfl

theorem run_recorded_ok {n : Accepted chunk} (h : (write w chunk).run st = ((.ok n, w'), st')) :
  (write.recorded ⟨w, calls⟩ chunk).run st
    = ((.ok n, ⟨w', calls ++ [.ok (chunk.take n.val)]⟩), st')
  := by
  rw [WriteCall.recorded, run_bind_eq h]
  rfl

end

/-! ### Calls one after the other -/

section

variable {σ W : Type} (write : WriteCall (StateM σ) W)

/-- By calls one after the other the writer takes the pieces. -/
inductive Takes : W → σ → List (List UInt8) → W → σ → Prop where
  | nil (w : W) (st : σ) : Takes w st [] w st
  | cons {w w₁ w' : W} {st st₁ st' : σ} {chunk : List UInt8} {n : Accepted chunk}
      {pieces : List (List UInt8)} (hchunk : chunk ≠ [])
      (h : (write w chunk).run st = ((.ok n, w₁), st₁)) (rest : Takes w₁ st₁ pieces w' st') :
      Takes w st (chunk.take n.val :: pieces) w' st'

/-- What writing octets comes to: the writer takes all of them, or it takes their beginning and then
fails when it is given some of what is left. -/
inductive Emission (w : W) (st : σ) (octets : List UInt8) :
    Except Text Unit → W → σ → List (List UInt8) → Prop where
  | whole {w' : W} {st' : σ} {pieces : List (List UInt8)} (htakes : Takes write w st pieces w' st')
      (h : pieces.flatten = octets) : Emission w st octets (.ok ()) w' st' pieces
  | partly {w₁ w' : W} {st₁ st' : σ} {pieces : List (List UInt8)} {chunk left : List UInt8}
      {cause : Text} (htakes : Takes write w st pieces w₁ st₁) (hchunk : chunk ≠ [])
      (hleft : chunk <+: left) (hfails : (write w₁ chunk).run st₁ = ((.error cause, w'), st'))
      (h : pieces.flatten ++ left = octets) : Emission w st octets (.error cause) w' st' pieces

end

variable {σ W : Type} {write : WriteCall (StateM σ) W} {w w₁ w' : W} {st st₁ st' : σ}
  {pieces pieces' : List (List UInt8)} {octets octets' : List UInt8} {result : Except Text Unit}

theorem Takes.append (h : Takes write w st pieces w₁ st₁) (h' : Takes write w₁ st₁ pieces' w' st') :
  Takes write w st (pieces ++ pieces') w' st'
  := by
  induction h with
  | nil => exact h'
  | cons hchunk h _ ih => exact .cons hchunk h (ih h')

namespace Emission

/-- Pieces that are taken before. -/
theorem after (htakes : Takes write w st pieces w₁ st₁)
    (h : Emission write w₁ st₁ octets result w' st' pieces') :
  Emission write w st (pieces.flatten ++ octets) result w' st' (pieces ++ pieces')
  := by
  cases h with
  | whole htakes' h =>
    apply Emission.whole (htakes.append htakes')
    rw [List.flatten_append, h]
  | partly htakes' hchunk hleft hfails h =>
    apply Emission.partly (htakes.append htakes') hchunk hleft hfails
    rw [List.flatten_append, List.append_assoc, h]

/-- Octets that are not given to the writer any more. -/
theorem append {cause : Text} (h : Emission write w st octets (.error cause) w' st' pieces)
    (octets' : List UInt8) :
  Emission write w st (octets ++ octets') (.error cause) w' st' pieces
  := by
  cases h with
  | partly htakes hchunk hleft hfails h =>
    apply Emission.partly htakes hchunk (hleft.trans (List.prefix_append _ octets')) hfails
    rw [← h, List.append_assoc]

/-- What was taken at any time is a beginning of the octets. -/
theorem flatten_take_prefix (h : Emission write w st octets result w' st' pieces) (n : Nat) :
  (pieces.take n).flatten <+: octets
  := by
  have htake : (pieces.take n).flatten <+: pieces.flatten := by
    apply List.IsPrefix.flatten (List.take_prefix n pieces)
  cases h with
  | whole _ h =>
    rw [← h]
    apply htake
  | partly _ _ _ _ h =>
    rw [← h]
    apply htake.trans
    apply List.prefix_append

/-- A failure leaves something that is not taken. -/
theorem length_flatten_lt {cause : Text}
    (h : Emission write w st octets (.error cause) w' st' pieces) :
  pieces.flatten.length < octets.length
  := by
  cases h with
  | partly _ hchunk hleft _ h =>
    have hlt := Nat.lt_of_lt_of_le (List.length_pos_iff.2 hchunk) hleft.length_le
    rw [← h, List.length_append]
    apply Nat.lt_add_of_pos_right hlt

/-- Everything is taken exactly if writing succeeds. -/
theorem result_eq_ok_iff (h : Emission write w st octets result w' st' pieces) :
  result = .ok () ↔ pieces.flatten = octets
  := by
  cases result with
  | ok =>
    cases h with
    | whole _ h => exact iff_of_true rfl h
  | error cause =>
    apply iff_of_false
    · intro hok
      cases hok
    · intro hall
      have hlt := h.length_flatten_lt
      rw [hall] at hlt
      apply Nat.lt_irrefl _ hlt

end Emission

/-! ### Runs -/

section Runs

variable (write)

theorem exists_writeAll (w : W) (calls : List WriteOutcome) (octets : List UInt8) (st : σ) :
  ∃ result w' st' pieces,
    (writeAll write w octets).run st = ((result, w'), st')
      ∧ (writeAll write.recorded ⟨w, calls⟩ octets).run st
        = ((result, ⟨w', calls ++ (pieces.map .ok ++ failedCall result)⟩), st')
      ∧ Emission write w st octets result w' st' pieces
  := by
  induction w, octets using writeAll.induct generalizing calls st with
  | case1 w =>
    use .ok (), w, st, []
    rw [writeAll, writeAll, List.map_nil, List.nil_append, failedCall, List.append_nil]
    exact ⟨rfl, rfl, .whole (.nil w st) rfl⟩
  | case2 w b rest ih =>
    have hchunk := List.cons_ne_nil b rest
    rw [writeAll, writeAll]
    rcases h : (write w (b :: rest)).run st with ⟨⟨cause | n, w₁⟩, st₁⟩
    · use .error cause, w₁, st₁, []
      rw [run_bind_eq h, run_bind_eq (run_recorded_error calls h)]
      exact ⟨rfl, rfl, .partly (.nil w st) hchunk (List.prefix_refl _) h rfl⟩
    · -- What is left of the chunk is given again, to the writer as it is after the call.
      rw [run_bind_eq h, run_bind_eq (run_recorded_ok calls h)]
      obtain ⟨result, w', st', pieces, hplain, hrecorded, hemission⟩ :=
        ih n w₁ (calls ++ [.ok ((b :: rest).take n.val)]) st₁
      use result, w', st', (b :: rest).take n.val :: pieces, hplain
      have hafter := hemission.after (.cons hchunk h (.nil w₁ st₁))
      rw [List.flatten_singleton, List.take_append_drop] at hafter
      rw [List.append_assoc] at hrecorded
      exact ⟨hrecorded, hafter⟩

theorem exists_writeChunks (w : W) (calls : List WriteOutcome) (chunks : List (List UInt8))
    (st : σ) :
  ∃ result w' st' pieces,
    (writeChunks write w chunks).run st = ((result, w'), st')
      ∧ (writeChunks write.recorded ⟨w, calls⟩ chunks).run st
        = ((result, ⟨w', calls ++ (pieces.map .ok ++ failedCall result)⟩), st')
      ∧ Emission write w st chunks.flatten result w' st' pieces
  := by
  induction chunks generalizing w calls st with
  | nil =>
    use .ok (), w, st, []
    rw [writeChunks, writeChunks, List.map_nil, List.nil_append, failedCall, List.append_nil]
    exact ⟨rfl, rfl, .whole (.nil w st) rfl⟩
  | cons chunk chunks ih =>
    obtain ⟨result, w₁, st₁, pieces, hplain, hrecorded, hemission⟩ :=
      exists_writeAll write w calls chunk st
    rw [writeChunks, writeChunks, run_bind_eq hplain, run_bind_eq hrecorded, List.flatten_cons]
    cases result with
    | error cause =>
      use .error cause, w₁, st₁, pieces
      exact ⟨rfl, rfl, hemission.append chunks.flatten⟩
    | ok =>
      obtain ⟨result, w', st', pieces', hplain', hrecorded', hemission'⟩ :=
        ih w₁ (calls ++ (pieces.map .ok ++ failedCall (.ok ()))) st₁
      use result, w', st', pieces ++ pieces', hplain'
      cases hemission with
      | whole htakes h =>
        rw [failedCall, List.append_nil, List.append_assoc] at hrecorded'
        rw [failedCall, List.append_nil, List.map_append, List.append_assoc]
        have hafter := hemission'.after htakes
        rw [h] at hafter
        exact ⟨hrecorded', hafter⟩

end Runs

/-! ### Writers with a ration -/

/-- A condition on a number, a writer and a state under which the writer takes so many octets more,
in any pieces, and then fails. -/
structure Rationed (write : WriteCall (StateM σ) W) (ration : Nat → W → σ → Prop) : Prop where
  took : ∀ {b w st chunk}, ration b w st → chunk ≠ [] → ∀ {n : Accepted chunk} {w' st'},
    (write w chunk).run st = ((.ok n, w'), st') → n.val ≤ b ∧ ration (b - n.val) w' st'
  failed : ∀ {b w st chunk}, ration b w st → chunk ≠ [] → ∀ {cause w' st'},
    (write w chunk).run st = ((.error cause, w'), st') → b = 0

namespace Rationed

variable {ration : Nat → W → σ → Prop} (hration : Rationed write ration) {b : Nat}

include hration

/-- The ration is used up by what is taken. -/
theorem takes (htakes : Takes write w st pieces w' st') (h : ration b w st) :
  pieces.flatten.length ≤ b ∧ ration (b - pieces.flatten.length) w' st'
  := by
  induction htakes generalizing b with
  | nil w st => exact ⟨Nat.zero_le b, h⟩
  | @cons _ _ _ _ _ _ chunk n pieces hchunk hwrite _ ih =>
    obtain ⟨hle, h₁⟩ := hration.took h hchunk hwrite
    obtain ⟨hle', h'⟩ := ih h₁
    have hlength : (chunk.take n.val :: pieces).flatten.length = n.val + pieces.flatten.length := by
      rw [List.flatten_cons, List.length_append, List.length_take_of_le n.property.1]
    rw [hlength, Nat.sub_add_eq]
    use Nat.add_le_of_le_sub' hle hle', h'

/-- The writer takes as many of the octets as it takes in all, and succeeds if these are all. -/
theorem emission (h : Emission write w st octets result w' st' pieces) (hb : ration b w st) :
  pieces.flatten = octets.take b ∧ (result = .ok () ↔ octets.length ≤ b)
  := by
  cases result with
  | ok =>
    cases h with
    | whole htakes h =>
      obtain ⟨hle, -⟩ := hration.takes htakes hb
      rw [h] at hle ⊢
      use (List.take_of_length_le hle).symm
      exact iff_of_true rfl hle
  | error cause =>
    have hlt := h.length_flatten_lt
    cases h with
    | partly htakes hchunk _ hfails h =>
      -- The writer fails only when its ration is used up, so it has taken all of it.
      obtain ⟨hle, hrest⟩ := hration.takes htakes hb
      have hlength : pieces.flatten.length = b :=
        Nat.le_antisymm hle (Nat.le_of_sub_eq_zero (hration.failed hrest hchunk hfails))
      constructor
      · rw [← h, ← hlength, List.take_left]
      · apply iff_of_false
        · intro hok
          cases hok
        · rw [← hlength]
          apply Nat.not_le_of_lt hlt

end Rationed

/-- A buffer takes what is missing to its limit. -/
theorem rationed_buffer (cause : Text) :
  Rationed (σ := σ) Buffer.write fun b w _ => w.limit = some (w.octets.length + b, cause)
  := by
  constructor
  · intro b w st chunk hlimit hchunk n w' st' hwrite
    obtain ⟨n', haccept, hfill⟩ | ⟨cause', haccept, -⟩ := w.accept_cases hchunk
    · rw [Buffer.write_of_accept_eq_ok haccept] at hwrite
      cases hwrite
      have hle : n.val ≤ b := by
        by_contra hle
        rw [Buffer.fill_of_limit_eq_some hlimit, if_neg] at hfill
        · contradiction
        · rw [List.length_take_of_le n.property.1, Nat.add_sub_cancel_left]
          exact hle
      use hle
      rw [Buffer.append, hlimit, List.length_append, List.length_take_of_le n.property.1,
        Nat.add_assoc, Nat.add_sub_cancel' hle]
    · rw [Buffer.write_of_accept_eq_error haccept] at hwrite
      cases hwrite
  · intro b w st chunk hlimit hchunk cause' w' st' hwrite
    obtain ⟨n, haccept, -⟩ | ⟨cause'', haccept, hfill⟩ := w.accept_cases hchunk
    · rw [Buffer.write_of_accept_eq_ok haccept] at hwrite
      cases hwrite
    · rw [Buffer.fill_of_limit_eq_some hlimit, Nat.add_sub_cancel_left] at hfill
      split_ifs at hfill
      · cases congrArg Prod.fst hfill
      · have hoctets : w.octets ++ chunk.take b = w.octets :=
          congrArg (fun p => p.2.octets) hfill
        have hnone := List.self_eq_append_right.1 hoctets.symm
        apply (List.take_eq_nil_iff.1 hnone).resolve_right hchunk

/-! ### Companions -/

/-- Whatever a writer does, what it took of a companion by the first of its calls, however many, is
a beginning of the source that an unlimited buffer takes.  Writing succeeds if all of it is taken;
otherwise the last call is the one that failed, and its cause is told.  A writer with a ration takes
so many of the first octets, or all. -/
theorem emission_takes_prefix (c : Companion) (write : WriteCall (StateM σ) W) (w : W) (st : σ) :
  (writeChunks Buffer.write {} c.chunks : StateM σ _)
      = pure (.ok (), { octets := Utf8.encode c.source })
    ∧ ∃ (result : Except Text Unit) (w' : W) (st' : σ) (pieces : List (List UInt8)),
      (writeChunks write w c.chunks).run st = ((result, w'), st')
        ∧ (writeChunks write.recorded ⟨w, []⟩ c.chunks).run st
          = ((result, ⟨w', pieces.map .ok ++ failedCall result⟩), st')
        ∧ (∀ n, (pieces.take n).flatten <+: Utf8.encode c.source)
        ∧ (result = .ok () ↔ pieces.flatten = Utf8.encode c.source)
        ∧ ∀ ration, Rationed write ration → ∀ b, ration b w st →
          pieces.flatten = (Utf8.encode c.source).take b
            ∧ (result = .ok () ↔ (Utf8.encode c.source).length ≤ b)
  := by
  constructor
  · rw [Buffer.writeChunks_eq_fill, Generator.flatten_chunks]
    rfl
  · obtain ⟨result, w', st', pieces, hplain, hrecorded, hemission⟩ :=
      exists_writeChunks write w [] c.chunks st
    rw [Generator.flatten_chunks] at hemission
    use result, w', st', pieces, hplain, hrecorded, hemission.flatten_take_prefix,
      hemission.result_eq_ok_iff
    intro ration hration b hb
    apply hration.emission hemission hb

/-- A companion of one field. -/
def memo : Companion where
  layout := TypeName.layout ⟨"Memo"⟩ none
  suffix := "$$Icicle"
  namespaceKeys := false
  family := .host
  fields := [⟨{ name := "text", declaredType := "String", owner := ⟨"Memo"⟩ }, .plain .string⟩]

/-- A buffer with room for twelve octets takes the first twelve and is not called after its
failure. -/
theorem memo_cut_off :
  ∃ (w' : Buffer) (pieces : List (List UInt8)),
    (writeChunks (WriteCall.recorded Buffer.write) ⟨{ limit := some (12, "full") }, []⟩
        memo.chunks : StateM Unit _).run ()
      = ((.error "full", ⟨w', pieces.map .ok ++ [.error "full"]⟩), ())
    ∧ pieces.flatten = Utf8.encode "// Generated"
  := by
  obtain ⟨-, result, w', st', pieces, hplain, hrecorded, -, -, hration⟩ :=
    emission_takes_prefix memo (Buffer.write (m := StateM Unit)) { limit := some (12, "full") } ()
  obtain ⟨htaken, -⟩ := hration _ (rationed_buffer "full") 12 rfl
  have hlong : ¬ (Utf8.encode memo.source).length ≤ 12 := by
    decide +kernel
  have hfill := (Buffer.fill_of_limit_eq_some (b := { limit := some (12, "full") }) rfl
    (Utf8.encode memo.source)).trans (if_neg hlong)
  rw [Buffer.writeChunks_eq_fill, Generator.flatten_chunks, hfill] at hplain
  cases hplain
  refine ⟨_, pieces, hrecorded, ?_⟩
  rw [htaken]
  decide +kernel

end InstanceState
