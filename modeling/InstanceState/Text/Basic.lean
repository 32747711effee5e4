/-!
# Text

A text is a list of Unicode scalar values.  This file holds the ways in which texts are
cut: at the first and at the last occurrence of a character, and after a leading or
before a trailing text.  Each cut comes with the statement that it loses nothing.
-/

namespace InstanceState

/-- A list of Unicode scalar values. -/
abbrev Text := List Char

/-- A string literal stands for the list of its characters. -/
instance : Coe String Text := ⟨String.toList⟩

namespace Text

/-! ### Cuts at a character -/

/-- The parts of a text before and after the first occurrence of `c`. -/
def cutFirst? (c : Char) : Text → Option (Text × Text)
  | [] => none
  | d :: t =>
    if d = c then some ([], t)
    else (cutFirst? c t).map fun cut => (d :: cut.1, cut.2)

/-- The parts of a text before and after the last occurrence of `c`. -/
def cutLast? (c : Char) : Text → Option (Text × Text)
  | [] => none
  | d :: t =>
    match cutLast? c t with
    | some cut => some (d :: cut.1, cut.2)
    | none => if d = c then some ([], t) else none

/-- The parts of a text between the occurrences of `c`; an empty text has one empty part. -/
def pieces (c : Char) : Text → List Text
  | [] => [[]]
  | d :: t =>
    if d = c then [] :: pieces c t
    else
      match pieces c t with
      | [] => [[d]]
      | p :: ps => (d :: p) :: ps

/-- The texts with `separator` between each two of them. -/
def joinWith (separator : Text) : List Text → Text
  | [] => []
  | [t] => t
  | t :: u :: rest => t ++ separator ++ joinWith separator (u :: rest)

theorem cutFirst?_eq_some_iff {c : Char} {t a b : Text} :
  cutFirst? c t = some (a, b) ↔ t = a ++ c :: b ∧ c ∉ a
  := by
  induction t generalizing a with
  | nil => simp [cutFirst?]
  | cons d t ih =>
    by_cases h : d = c
    · subst h
      simp only [cutFirst?, if_pos]
      constructor
      · rintro h
        cases h
        simp
      · rintro ⟨h, ha⟩
        cases a with
        | nil => simp_all
        | cons e a => simp_all
    · simp only [cutFirst?, if_neg h, Option.map_eq_some_iff, Prod.mk.injEq, Prod.exists]
      constructor
      · rintro ⟨a', b', h', rfl, rfl⟩
        obtain ⟨rfl, ha⟩ := ih.1 h'
        exact ⟨rfl, by simp [ha, Ne.symm h]⟩
      · rintro ⟨h', ha⟩
        cases a with
        | nil => simp_all
        | cons e a =>
          simp only [List.cons_append, List.cons.injEq] at h'
          obtain ⟨rfl, rfl⟩ := h'
          exact ⟨a, b, ih.2 ⟨rfl, fun h' => ha (List.mem_cons_of_mem _ h')⟩, rfl, rfl⟩

theorem cutFirst?_eq_none_iff {c : Char} {t : Text} :
  cutFirst? c t = none ↔ c ∉ t
  := by
  induction t with
  | nil => simp [cutFirst?]
  | cons d t ih =>
    by_cases h : d = c
    · simp [cutFirst?, h]
    · simp [cutFirst?, h, ih, Ne.symm h]

theorem cutLast?_eq_none_iff {c : Char} {t : Text} :
  cutLast? c t = none ↔ c ∉ t
  := by
  induction t with
  | nil => simp [cutLast?]
  | cons d t ih =>
    simp only [cutLast?]
    cases h : cutLast? c t with
    | some cut => simp_all
    | none =>
      have hc := ih.1 h
      by_cases hd : d = c
      · simp [hd]
      · simp [hd, hc, Ne.symm hd]

theorem cutLast?_eq_some_iff {c : Char} {t a b : Text} :
  cutLast? c t = some (a, b) ↔ t = a ++ c :: b ∧ c ∉ b
  := by
  induction t generalizing a b with
  | nil => simp [cutLast?]
  | cons d t ih =>
    simp only [cutLast?]
    cases h : cutLast? c t with
    | none =>
      have hc := cutLast?_eq_none_iff.1 h
      by_cases hd : d = c
      · subst hd
        simp only [if_pos, Option.some.injEq, Prod.mk.injEq]
        constructor
        · rintro ⟨rfl, rfl⟩
          simp [hc]
        · rintro ⟨h', hb⟩
          cases a with
          | nil => simp_all
          | cons e a => simp_all
      · simp only [if_neg hd]
        constructor
        · rintro ⟨⟩
        · rintro ⟨h', hb⟩
          cases a with
          | nil => simp_all
          | cons e a => simp_all
    | some cut =>
      obtain ⟨a', b'⟩ := cut
      simp only [Option.some.injEq, Prod.mk.injEq]
      obtain ⟨ht, hb'⟩ := ih.1 h
      constructor
      · rintro ⟨rfl, rfl⟩
        simp [ht, hb']
      · rintro ⟨h', hb⟩
        cases a with
        | nil =>
          simp only [List.nil_append, List.cons.injEq] at h'
          obtain ⟨rfl, rfl⟩ := h'
          simp_all
        | cons e a =>
          simp only [List.cons_append, List.cons.injEq] at h'
          obtain ⟨rfl, h'⟩ := h'
          have := ih.2 ⟨h', hb⟩
          simp only [h, Option.some.injEq, Prod.mk.injEq] at this
          simp [this]

/-! ### Leading and trailing texts -/

/-- What follows `head` in a text that begins with it. -/
def after? : Text → Text → Option Text
  | [], t => some t
  | _ :: _, [] => none
  | c :: head, d :: t => if c = d then after? head t else none

/-- What comes before `tail` in a text that ends with it. -/
def before? (tail t : Text) : Option Text :=
  (after? tail.reverse t.reverse).map List.reverse

theorem after?_eq_some_iff {head t rest : Text} :
  after? head t = some rest ↔ t = head ++ rest
  := by
  induction head generalizing t with
  | nil => simp [after?, eq_comm]
  | cons c head ih =>
    cases t with
    | nil => simp [after?]
    | cons d t =>
      by_cases h : c = d
      · simp [after?, h, ih]
      · simp [after?, h, Ne.symm h]

theorem before?_eq_some_iff {tail t rest : Text} :
  before? tail t = some rest ↔ t = rest ++ tail
  := by
  simp only [before?, Option.map_eq_some_iff, after?_eq_some_iff]
  constructor
  · rintro ⟨a, h, rfl⟩
    rw [← List.reverse_inj]
    simp [h]
  · rintro rfl
    exact ⟨rest.reverse, by simp⟩

/-! ### Replacement of a character -/

/-- The text with `new` in place of each `old`. -/
def substitute (old new : Char) (t : Text) : Text :=
  t.map fun c => if c = old then new else c

end Text

end InstanceState
