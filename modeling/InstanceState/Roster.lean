import InstanceState.Text.Basic

/-!
# Rosters

A roster holds one entry for each of finitely many keys, in increasing order of the keys.  Keys
are compared by code points, which is also the order of their UTF-8 octets.
-/

namespace InstanceState

/-- Entries in increasing order of their keys. -/
structure Roster (α : Type) where
  entries : List (Text × α)
  ordered : entries.Pairwise fun a b => a.1 < b.1
deriving DecidableEq, Repr

namespace Roster

variable {α : Type}

/-- The roster without entries. -/
def empty : Roster α := ⟨[], .nil⟩

/-- The keys, in increasing order. -/
def keys (r : Roster α) : List Text := r.entries.map Prod.fst

/-- The values, in increasing order of their keys. -/
def values (r : Roster α) : List α := r.entries.map Prod.snd

/-- The value of a key. -/
def find? (r : Roster α) (key : Text) : Option α := r.entries.lookup key

/-- The entries in which the value of `key` is what `f` makes of the earlier one. -/
def alterEntries (key : Text) (f : Option α → α) : List (Text × α) → List (Text × α)
  | [] => [(key, f none)]
  | (k, a) :: rest =>
    if key < k then (key, f none) :: (k, a) :: rest
    else if key = k then (k, f (some a)) :: rest
    else (k, a) :: alterEntries key f rest

theorem key_of_mem_alterEntries {key : Text} {f : Option α → α} {entries : List (Text × α)}
    {e : Text × α} (h : e ∈ alterEntries key f entries) :
  e.1 = key ∨ ∃ e' ∈ entries, e'.1 = e.1
  := by
  induction entries with
  | nil => simp_all [alterEntries]
  | cons p rest ih =>
    obtain ⟨k, a⟩ := p
    simp only [alterEntries] at h
    split at h
    · rcases List.mem_cons.1 h with rfl | h
      · exact .inl rfl
      · exact .inr ⟨e, h, rfl⟩
    · split at h
      · rename_i hk
        rcases List.mem_cons.1 h with rfl | h
        · exact .inl hk.symm
        · exact .inr ⟨e, List.mem_cons_of_mem _ h, rfl⟩
      · rcases List.mem_cons.1 h with rfl | h
        · exact .inr ⟨(k, a), List.mem_cons_self, rfl⟩
        · rcases ih h with h | ⟨e', he', h⟩
          · exact .inl h
          · exact .inr ⟨e', List.mem_cons_of_mem _ he', h⟩

theorem ordered_alterEntries {key : Text} {f : Option α → α} {entries : List (Text × α)}
    (h : entries.Pairwise fun a b => a.1 < b.1) :
  (alterEntries key f entries).Pairwise fun a b => a.1 < b.1
  := by
  induction entries with
  | nil => simp [alterEntries]
  | cons p rest ih =>
    obtain ⟨k, a⟩ := p
    obtain ⟨hk, hr⟩ := List.pairwise_cons.1 h
    simp only [alterEntries]
    split
    · rename_i hlt
      refine List.pairwise_cons.2 ⟨fun e he => ?_, h⟩
      rcases List.mem_cons.1 he with rfl | he
      · exact hlt
      · exact List.lt_trans hlt (hk e he)
    · split
      · exact List.pairwise_cons.2 ⟨hk, hr⟩
      · rename_i hlt hne
        refine List.pairwise_cons.2 ⟨fun e he => ?_, ih hr⟩
        rcases key_of_mem_alterEntries he with h' | ⟨e', he', h'⟩
        · rcases List.le_iff_lt_or_eq.1 (List.not_lt.1 hlt) with h'' | h''
          · simpa [h'] using h''
          · exact absurd h''.symm hne
        · simpa [h'] using hk e' he'

/-- The roster in which the value of `key` is what `f` makes of the earlier one. -/
def alter (r : Roster α) (key : Text) (f : Option α → α) : Roster α :=
  ⟨alterEntries key f r.entries, ordered_alterEntries r.ordered⟩

/-- The roster in which `key` has the given value. -/
def insert (r : Roster α) (key : Text) (a : α) : Roster α := r.alter key fun _ => a

end Roster

end InstanceState
