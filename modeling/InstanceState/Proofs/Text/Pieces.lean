import InstanceState.Text.Basic
import Mathlib.Data.List.Basic

/-!
# Pieces of texts

The pieces of a text are those at which `List.splitOn` arrives.  A piece is a part of the text that
holds no separator, and a text without a separator that is put at the end lengthens the last
piece.
-/

namespace InstanceState.Text

variable {c : Char}

theorem pieces_eq_splitOn (c : Char) (t : Text) :
  pieces c t = t.splitOn c
  := by
  induction t with
  | nil => rfl
  | cons d t ih =>
    obtain ⟨p, ps, ht⟩ := List.exists_cons_of_ne_nil (List.splitOn_ne_nil c t)
    rw [List.splitOn_cons_eq_if_modifyHead, pieces, ih, ht]
    by_cases h : d = c
    · rw [if_pos h, if_pos (beq_iff_eq.2 h)]
    · rw [if_neg h, if_neg (mt beq_iff_eq.1 h), List.modifyHead_cons]

theorem pieces_append_separator (s t : Text) :
  pieces c (s ++ c :: t) = pieces c s ++ pieces c t
  := by
  rw [pieces_eq_splitOn, pieces_eq_splitOn, pieces_eq_splitOn, List.splitOn_append_cons_self]

theorem pieces_of_not_mem {t : Text} (h : c ∉ t) :
  pieces c t = [t]
  := by
  rw [pieces_eq_splitOn, List.splitOn_eq_singleton h]

theorem pieces_append_cons {s : Text} (h : c ∉ s) (t : Text) :
  pieces c (s ++ c :: t) = s :: pieces c t
  := by
  rw [pieces_append_separator, pieces_of_not_mem h, List.singleton_append]

/-- Texts without `c` that are each followed by `c` are cut into themselves, and nothing after the
last `c`. -/
theorem pieces_flatMap {ts : List Text} (h : ∀ t ∈ ts, c ∉ t) :
  pieces c (ts.flatMap (· ++ [c])) = ts ++ [[]]
  := by
  induction ts with
  | nil => rfl
  | cons t ts ih =>
    rw [List.flatMap_cons, List.append_assoc, List.singleton_append,
      pieces_append_cons (h t List.mem_cons_self), ih fun u hu => h u (List.mem_cons_of_mem _ hu),
      List.cons_append]

/-- The last piece is the one that a text without a separator lengthens. -/
theorem exists_pieces_eq_concat (c : Char) (s : Text) :
  ∃ ps p, pieces c s = ps ++ [p] ∧ ∀ t, c ∉ t → pieces c (s ++ t) = ps ++ [p ++ t]
  := by
  rcases h : cutLast? c s with _ | ⟨a, b⟩
  · have hs := cutLast?_eq_none_iff.1 h
    use [], s, pieces_of_not_mem hs
    intro t ht
    apply pieces_of_not_mem
    rw [List.mem_append, not_or]
    exact ⟨hs, ht⟩
  · obtain ⟨rfl, hb⟩ := cutLast?_eq_some_iff.1 h
    use pieces c a, b
    constructor
    · rw [pieces_append_separator, pieces_of_not_mem hb]
    · intro t ht
      have hbt : c ∉ b ++ t := by
        rw [List.mem_append, not_or]
        exact ⟨hb, ht⟩
      rw [List.append_assoc, List.cons_append, pieces_append_separator, pieces_of_not_mem hbt]

/-- A piece is a part of the text, and holds no separator. -/
theorem sublist_of_mem_pieces {t p : Text} (h : p ∈ pieces c t) :
  p.Sublist t ∧ c ∉ p
  := by
  induction t generalizing p with
  | nil =>
    rw [pieces, List.mem_singleton] at h
    rw [h]
    exact ⟨List.Sublist.refl _, List.not_mem_nil⟩
  | cons d t ih =>
    rw [pieces_eq_splitOn, List.splitOn_cons_eq_if_modifyHead, ← pieces_eq_splitOn] at h
    by_cases hd : d = c
    · rw [if_pos (beq_iff_eq.2 hd), List.mem_cons] at h
      rcases h with rfl | h
      · exact ⟨List.nil_sublist _, List.not_mem_nil⟩
      · obtain ⟨hp, hc⟩ := ih h
        exact ⟨hp.cons d, hc⟩
    · rw [if_neg (mt beq_iff_eq.1 hd)] at h
      cases ht : pieces c t with
      | nil =>
        rw [ht] at h
        contradiction
      | cons q qs =>
        rw [ht, List.modifyHead_cons, List.mem_cons] at h
        rcases h with rfl | h
        · obtain ⟨hq, hc⟩ := ih (ht ▸ List.mem_cons_self)
          use hq.cons_cons d
          rw [List.mem_cons, not_or]
          exact ⟨Ne.symm hd, hc⟩
        · obtain ⟨hp, hc⟩ := ih (ht ▸ List.mem_cons_of_mem q h)
          exact ⟨hp.cons d, hc⟩

/-! ### Joined pieces -/

theorem joinWith_cons_of_ne_nil {separator : Text} (t : Text) {ts : List Text} (h : ts ≠ []) :
  joinWith separator (t :: ts) = t ++ separator ++ joinWith separator ts
  := by
  obtain ⟨u, us, rfl⟩ := List.exists_cons_of_ne_nil h
  rfl

theorem joinWith_eq_intercalate (separator : Text) (ts : List Text) :
  joinWith separator ts = separator.intercalate ts
  := by
  induction ts with
  | nil => rfl
  | cons t ts ih =>
    cases ts with
    | nil => simp [joinWith]
    | cons u us => rw [joinWith, ih, List.intercalate_cons_cons]

/-- The pieces make up the text. -/
theorem joinWith_pieces (c : Char) (t : Text) :
  joinWith [c] (pieces c t) = t
  := by
  rw [joinWith_eq_intercalate, pieces_eq_splitOn, List.intercalate_splitOn]

theorem pieces_injective (c : Char) :
  Function.Injective (pieces c)
  := by
  intro s t h
  rw [← joinWith_pieces c s, h, joinWith_pieces]

/-- What is put at the end of the last text is at the end of the joined texts. -/
theorem joinWith_concat_append (separator : Text) (ts : List Text) (t u : Text) :
  joinWith separator (ts ++ [t ++ u]) = joinWith separator (ts ++ [t]) ++ u
  := by
  induction ts with
  | nil => rfl
  | cons s ts ih =>
    rw [List.cons_append, joinWith_cons_of_ne_nil s (by simp), ih, List.cons_append,
      joinWith_cons_of_ne_nil s (by simp)]
    symm
    apply List.append_assoc

end InstanceState.Text
