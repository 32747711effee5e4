import InstanceState.Text.Blank
import Mathlib.Data.List.DropRight

/-!
# Blank characters at the ends

A text is what is left of it without the blank characters at its ends, between blank characters.
Blank characters at the ends make no difference to what is left, and nothing more is taken from
a text that begins and ends with other characters.
-/

namespace InstanceState.Text

/-- A text of blank characters only. -/
def AllBlank (w : Text) : Prop := ∀ c ∈ w, isBlank c = true

theorem allBlank_iff {w : Text} :
  w.all isBlank = true ↔ AllBlank w
  := List.all_eq_true

instance (w : Text) : Decidable (AllBlank w) := decidable_of_iff _ allBlank_iff

theorem allBlank_nil :
  AllBlank []
  := by
  intro c hc
  contradiction

theorem trimStart_append_of_allBlank {w : Text} (h : AllBlank w) (t : Text) :
  trimStart (w ++ t) = trimStart t
  := by
  apply List.dropWhile_append_of_pos h

theorem trimEnd_append_of_allBlank {w : Text} (h : AllBlank w) (t : Text) :
  trimEnd (t ++ w) = trimEnd t
  := by
  rw [trimEnd, List.reverse_append, List.dropWhile_append_of_pos]
  · rfl
  · intro c hc
    apply h c (List.mem_reverse.1 hc)

theorem trimStart_cons_of_not_blank {c : Char} (h : isBlank c = false) (t : Text) :
  trimStart (c :: t) = c :: t
  := by
  rw [trimStart, List.dropWhile_cons_of_neg (Bool.eq_false_iff.1 h)]

theorem trimEnd_concat_of_not_blank {c : Char} (h : isBlank c = false) (t : Text) :
  trimEnd (t ++ [c]) = t ++ [c]
  := by
  rw [trimEnd, List.reverse_append, List.reverse_singleton, List.singleton_append,
    List.dropWhile_cons_of_neg (Bool.eq_false_iff.1 h)]
  simp

theorem exists_eq_append_trimStart (t : Text) :
  ∃ w, AllBlank w ∧ t = w ++ trimStart t
  := by
  use t.takeWhile isBlank
  constructor
  · intro c hc
    apply List.mem_takeWhile_imp hc
  · symm
    apply List.takeWhile_append_dropWhile

theorem exists_eq_trimEnd_append (t : Text) :
  ∃ w, AllBlank w ∧ t = trimEnd t ++ w
  := by
  obtain ⟨w, hw, ht⟩ := exists_eq_append_trimStart t.reverse
  use w.reverse
  constructor
  · intro c hc
    apply hw c (List.mem_reverse.1 hc)
  · rw [← List.reverse_inj, ht]
    simp [trimEnd, trimStart]

/-! ### Texts with another character -/

theorem trimStart_append_cons {c : Char} (hc : isBlank c = false) (s t : Text) :
  trimStart (s ++ c :: t) = trimStart s ++ c :: t
  := by
  induction s with
  | nil => apply trimStart_cons_of_not_blank hc
  | cons d s ih =>
    cases hd : isBlank d with
    | false =>
      rw [List.cons_append, trimStart_cons_of_not_blank hd, trimStart_cons_of_not_blank hd]
      rfl
    | true =>
      rw [List.cons_append, trimStart, List.dropWhile_cons_of_pos hd, trimStart,
        List.dropWhile_cons_of_pos hd]
      apply ih

theorem trimEnd_append_cons {c : Char} (hc : isBlank c = false) (s t : Text) :
  trimEnd (s ++ c :: t) = s ++ c :: trimEnd t
  := by
  have h := congrArg List.reverse (trimStart_append_cons hc t.reverse s.reverse)
  simpa [trimStart, trimEnd] using h

theorem trim_append_cons {c : Char} (hc : isBlank c = false) (s t : Text) :
  trim (s ++ c :: t) = trimStart s ++ c :: trimEnd t
  := by
  rw [trim, trimStart_append_cons hc, trimEnd_append_cons hc]

/-- A text that starts and ends with other characters stays as it is. -/
theorem trim_eq_self {c d : Char} {s s' t : Text} (h : t = c :: s) (h' : t = s' ++ [d])
    (hc : isBlank c = false) (hd : isBlank d = false) :
  trim t = t
  := by
  rw [trim, h, trimStart_cons_of_not_blank hc, ← h, h', trimEnd_concat_of_not_blank hd]

/-- Blank characters around a text make no difference to what is left of it. -/
theorem trim_append_append {w w' : Text} (hw : AllBlank w) (hw' : AllBlank w') (t : Text) :
  trim (w ++ t ++ w') = trim t
  := by
  rw [List.append_assoc, trim, trimStart_append_of_allBlank hw, trimStart, List.dropWhile_append]
  cases ht : t.dropWhile isBlank with
  | nil =>
    have hnil : w'.dropWhile isBlank = [] := List.dropWhile_eq_nil_iff.2 hw'
    rw [List.isEmpty_nil, if_pos rfl, hnil, trim, trimStart, ht]
  | cons c s =>
    rw [List.isEmpty_cons, if_neg Bool.false_ne_true, trimEnd_append_of_allBlank hw', ← ht]
    rfl

theorem exists_eq_append_trim_append (t : Text) :
  ∃ w w', AllBlank w ∧ AllBlank w' ∧ t = w ++ trim t ++ w'
  := by
  obtain ⟨w, hw, ht⟩ := exists_eq_append_trimStart t
  obtain ⟨w', hw', ht'⟩ := exists_eq_trimEnd_append (trimStart t)
  use w, w', hw, hw'
  rw [trim, List.append_assoc, ← ht', ← ht]

theorem trim_trim (t : Text) :
  trim (trim t) = trim t
  := by
  obtain ⟨w, w', hw, hw', ht⟩ := exists_eq_append_trim_append t
  rw [← trim_append_append hw hw' (trim t), ← ht]

theorem trim_trimEnd (t : Text) :
  trim (trimEnd t) = trim t
  := by
  obtain ⟨w, hw, ht⟩ := exists_eq_trimEnd_append t
  rw [← trim_append_append allBlank_nil hw (trimEnd t), List.nil_append, ← ht]

theorem mem_of_mem_trim {c : Char} {t : Text} (h : c ∈ trim t) :
  c ∈ t
  := by
  obtain ⟨w, w', -, -, ht⟩ := exists_eq_append_trim_append t
  rw [ht]
  simp [h]

theorem mem_trim_iff {c : Char} (hc : isBlank c = false) {t : Text} :
  c ∈ trim t ↔ c ∈ t
  := by
  constructor
  · apply mem_of_mem_trim
  · obtain ⟨w, w', hw, hw', ht⟩ := exists_eq_append_trim_append t
    intro h
    rw [ht, List.mem_append, List.mem_append] at h
    rcases h with (h | h) | h
    · simp [hw c h] at hc
    · exact h
    · simp [hw' c h] at hc

end InstanceState.Text
