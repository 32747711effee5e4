import Mathlib.Data.List.Basic

/-!
# Runs of state machines

Steps of a state machine whose runs are known, one after the other.
-/

namespace InstanceState

variable {σ α β : Type}

theorem run_bind_eq {x : StateM σ α} {st st' : σ} {a : α} (h : x.run st = (a, st'))
    (f : α → StateM σ β) :
  (x >>= f).run st = (f a).run st'
  := by
  rw [StateT.run_bind, h]
  rfl

/-- Steps whose answers do not depend on the state. -/
theorem run_mapM_eq {x : β → StateM σ α} {answer : β → α} {step : σ → β → σ} {bs : List β}
    (h : ∀ b ∈ bs, ∀ st, (x b).run st = (answer b, step st b)) (st : σ) :
  (bs.mapM x).run st = (bs.map answer, bs.foldl step st)
  := by
  induction bs generalizing st with
  | nil => rfl
  | cons b bs ih =>
    obtain ⟨hb, hbs⟩ := List.forall_mem_cons.1 h
    rw [List.mapM_cons, run_bind_eq (hb st), run_bind_eq (ih hbs (step st b))]
    rfl

end InstanceState
