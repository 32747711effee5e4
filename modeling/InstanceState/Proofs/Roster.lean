import InstanceState.Roster
import Mathlib.Data.List.Induction
import Mathlib.Data.List.Nodup
import Mathlib.Data.List.Sort

/-!
# Look-up in rosters

What altering one key does to the look-up of every key, the keys as those that have a value, and
the values as what the keys have, in order.  A set of names is a roster of names with nothing more.
-/

namespace InstanceState.Roster

variable {α : Type}

theorem ne_of_lt {key other : Text} (h : key < other) :
  key ≠ other
  := by
  rintro rfl
  apply List.lt_irrefl _ h

theorem lookup_cons_of_ne {key other : Text} (h : other ≠ key) (a : α)
    (entries : List (Text × α)) :
  ((key, a) :: entries).lookup other = entries.lookup other
  := by
  rw [List.lookup_cons, beq_eq_false_iff_ne.2 h]

theorem lookup_eq_none_of_lt {key : Text} {entries : List (Text × α)}
    (h : ∀ e ∈ entries, key < e.1) :
  entries.lookup key = none
  := by
  rw [List.lookup_eq_none_iff]
  intro e he
  rw [bne_iff_ne]
  apply ne_of_lt (h e he)

theorem lookup_alterEntries (key other : Text) (f : Option α → α) {entries : List (Text × α)}
    (h : entries.Pairwise fun a b => a.1 < b.1) :
  (alterEntries key f entries).lookup other
    = if other = key then some (f (entries.lookup key)) else entries.lookup other
  := by
  induction entries with
  | nil =>
    by_cases ho : other = key
    · simp [alterEntries, ho]
    · simp [alterEntries, ho]
  | cons e entries ih =>
    obtain ⟨k, a⟩ := e
    obtain ⟨hk, he⟩ := List.pairwise_cons.1 h
    rw [alterEntries]
    by_cases hlt : key < k
    · rw [if_pos hlt]
      have hnone : ((k, a) :: entries).lookup key = none := by
        apply lookup_eq_none_of_lt
        intro e he'
        rcases List.mem_cons.1 he' with rfl | he'
        · exact hlt
        · apply List.lt_trans hlt (hk e he')
      by_cases ho : other = key
      · rw [if_pos ho, hnone, ho, List.lookup_cons_self]
      · rw [if_neg ho, lookup_cons_of_ne ho]
    · rw [if_neg hlt]
      by_cases heq : key = k
      · subst heq
        rw [if_pos rfl, List.lookup_cons_self]
        by_cases ho : other = key
        · rw [if_pos ho, ho, List.lookup_cons_self]
        · rw [if_neg ho, lookup_cons_of_ne ho, lookup_cons_of_ne ho]
      · rw [if_neg heq, lookup_cons_of_ne heq]
        by_cases ho : other = k
        · subst ho
          rw [if_neg (Ne.symm heq), List.lookup_cons_self, List.lookup_cons_self]
        · rw [lookup_cons_of_ne ho, lookup_cons_of_ne ho, ih he]

/-- Altering the value of a key changes no other value. -/
theorem find?_alter (r : Roster α) (key other : Text) (f : Option α → α) :
  (r.alter key f).find? other = if other = key then some (f (r.find? key)) else r.find? other
  := lookup_alterEntries key other f r.ordered

theorem find?_insert (r : Roster α) (key other : Text) (a : α) :
  (r.insert key a).find? other = if other = key then some a else r.find? other
  := find?_alter r key other fun _ => a

theorem keys_pairwise (r : Roster α) :
  r.keys.Pairwise (· < ·)
  := List.pairwise_map.2 r.ordered

theorem mem_keys_iff {r : Roster α} {key : Text} :
  key ∈ r.keys ↔ (r.find? key).isSome
  := by
  rw [find?, List.lookup_isSome_iff]
  simp [keys]

theorem lookup_of_mem {entries : List (Text × α)}
    (h : entries.Pairwise fun a b => a.1 < b.1) {e : Text × α} (he : e ∈ entries) :
  entries.lookup e.1 = some e.2
  := by
  induction entries with
  | nil => contradiction
  | cons d entries ih =>
    obtain ⟨hd, hr⟩ := List.pairwise_cons.1 h
    rcases List.mem_cons.1 he with rfl | he
    · apply List.lookup_cons_self
    · rw [lookup_cons_of_ne (ne_of_lt (hd e he)).symm]
      apply ih hr he

/-- The values are what the keys have, in the order of the keys. -/
theorem values_eq (r : Roster α) :
  r.values = r.keys.filterMap r.find?
  := by
  rw [keys, List.filterMap_map, values, ← List.filterMap_eq_map]
  apply List.filterMap_congr
  intro e he
  symm
  apply lookup_of_mem r.ordered he

/-- The entries are the keys with what they have. -/
theorem entries_eq (r : Roster α) :
  r.entries = r.keys.filterMap fun key => (r.find? key).map (key, ·)
  := by
  rw [keys, List.filterMap_map]
  apply List.filterMap_some.symm.trans
  apply List.filterMap_congr
  intro e he
  rw [Function.comp_apply, find?, lookup_of_mem r.ordered he]
  rfl

/-- A roster is determined by what its keys have. -/
theorem ext_find? {r s : Roster α} (h : ∀ key, r.find? key = s.find? key) :
  r = s
  := by
  have hkeys : r.keys = s.keys := by
    apply r.keys_pairwise.eq_of_mem_iff s.keys_pairwise
    intro key
    rw [mem_keys_iff, mem_keys_iff, h]
  have hentries : r.entries = s.entries := by
    rw [entries_eq, entries_eq, hkeys]
    apply List.filterMap_congr
    intro key _
    rw [h]
  cases r
  cases s
  congr

theorem alter_eq_insert (r : Roster α) (key : Text) (f : Option α → α) :
  r.alter key f = r.insert key (f (r.find? key))
  := by
  apply ext_find?
  intro other
  rw [find?_alter, find?_insert]

/-- Different keys can be given their values in either order. -/
theorem insert_comm {key key' : Text} (h : key ≠ key') (a a' : α) (r : Roster α) :
  (r.insert key a).insert key' a' = (r.insert key' a').insert key a
  := by
  apply ext_find?
  intro other
  rw [find?_insert, find?_insert, find?_insert, find?_insert]
  split_ifs with hother' hother
  · exact absurd (hother.symm.trans hother') h
  · rfl
  · rfl
  · rfl

/-! ### Insertion in turn -/

section Insertion

variable {β : Type} (key : β → Text) (value : β → α)

theorem find?_foldl_insert_of_ne {other : Text} {bs : List β} (h : ∀ b ∈ bs, other ≠ key b)
    (r : Roster α) :
  (bs.foldl (fun r b => r.insert (key b) (value b)) r).find? other = r.find? other
  := by
  induction bs generalizing r with
  | nil => rfl
  | cons b bs ih =>
    rw [List.foldl_cons, ih (fun b' hb' => h b' (List.mem_cons_of_mem b hb')), find?_insert,
      if_neg (h b List.mem_cons_self)]

/-- Of the entries of one key the last is there after all of them. -/
theorem find?_foldl_insert {before after : List β} {b : β} (h : ∀ b' ∈ after, key b ≠ key b')
    (r : Roster α) :
  ((before ++ b :: after).foldl (fun r b => r.insert (key b) (value b)) r).find? (key b)
    = some (value b)
  := by
  rw [List.foldl_append, List.foldl_cons, find?_foldl_insert_of_ne key value h, find?_insert,
    if_pos rfl]

/-- Entries of different keys are all there after all of them. -/
theorem find?_foldl_insert_of_mem {bs : List β} (h : (bs.map key).Nodup) {b : β} (hb : b ∈ bs)
    (r : Roster α) :
  (bs.foldl (fun r b => r.insert (key b) (value b)) r).find? (key b) = some (value b)
  := by
  obtain ⟨before, after, rfl⟩ := List.append_of_mem hb
  rw [List.map_append, List.map_cons] at h
  obtain ⟨-, hafter, -⟩ := List.nodup_append.1 h
  apply find?_foldl_insert
  intro b' hb' heq
  apply (List.nodup_cons.1 hafter).1
  rw [heq]
  apply List.mem_map_of_mem hb'

/-- Entries that are left out, of different keys, make a difference to their own keys alone. -/
theorem find?_foldl_insert_filter {bs : List β} (h : (bs.map key).Nodup) (p : β → Bool)
    (other : Text) (r : Roster α) :
  ((bs.filter p).foldl (fun r b => r.insert (key b) (value b)) r).find? other
    = if other ∈ (bs.filter fun b => !p b).map key then r.find? other
      else (bs.foldl (fun r b => r.insert (key b) (value b)) r).find? other
  := by
  have hinj := List.inj_on_of_nodup_map h
  have hp : ((bs.filter p).map key).Nodup := h.sublist (List.filter_sublist.map key)
  by_cases hother : other ∈ bs.map key
  · obtain ⟨b, hb, rfl⟩ := List.mem_map.1 hother
    rw [find?_foldl_insert_of_mem key value h hb]
    by_cases hpb : p b = true
    · have hkept : key b ∉ (bs.filter fun b => !p b).map key := by
        intro hmem
        obtain ⟨b', hb', heq⟩ := List.mem_map.1 hmem
        obtain ⟨hb', hpb'⟩ := List.mem_filter.1 hb'
        rw [hinj hb' hb heq, hpb] at hpb'
        contradiction
      rw [find?_foldl_insert_of_mem key value hp (List.mem_filter.2 ⟨hb, hpb⟩), if_neg hkept]
    · have hleft : key b ∈ (bs.filter fun b => !p b).map key := by
        apply List.mem_map_of_mem
        rw [List.mem_filter, Bool.not_eq_true']
        exact ⟨hb, Bool.eq_false_iff.2 hpb⟩
      rw [if_pos hleft]
      apply find?_foldl_insert_of_ne
      intro b' hb' heq
      obtain ⟨hb', hpb'⟩ := List.mem_filter.1 hb'
      rw [hinj hb hb' heq] at hpb
      contradiction
  -- a key without an entry is left alone on either side
  · have hne : ∀ b ∈ bs, other ≠ key b := by
      rintro b hb rfl
      apply hother (List.mem_map_of_mem hb)
    rw [find?_foldl_insert_of_ne key value hne,
      find?_foldl_insert_of_ne key value fun b hb => hne b (List.mem_of_mem_filter hb), ite_self]

/-- Entries of different keys can be inserted in any order. -/
theorem foldl_insert_perm {bs bs' : List β} (hperm : bs.Perm bs') (h : (bs.map key).Nodup)
    (r : Roster α) :
  bs.foldl (fun r b => r.insert (key b) (value b)) r
    = bs'.foldl (fun r b => r.insert (key b) (value b)) r
  := by
  apply hperm.foldl_eq'
  intro b hb b' hb' r
  by_cases heq : key b = key b'
  · rw [List.inj_on_of_nodup_map h hb hb' heq]
  · apply insert_comm heq

end Insertion

/-! ### Sets of names -/

/-- The set of the given names. -/
def ofNames (names : List Text) : Roster Unit :=
  names.foldl (fun r name => r.insert name ()) .empty

theorem ofNames_concat (names : List Text) (name : Text) :
  ofNames (names ++ [name]) = (ofNames names).insert name ()
  := by
  rw [ofNames, List.foldl_concat, ofNames]

theorem find?_ofNames_isSome_iff {names : List Text} {name : Text} :
  ((ofNames names).find? name).isSome = true ↔ name ∈ names
  := by
  induction names using List.reverseRecOn with
  | nil => exact iff_of_false Bool.false_ne_true List.not_mem_nil
  | append_singleton names last ih =>
    rw [ofNames_concat, find?_insert, List.mem_append, List.mem_singleton]
    split_ifs with h
    · exact iff_of_true rfl (Or.inr h)
    · rw [ih, or_iff_left h]

end InstanceState.Roster
