import InstanceState.Proofs.Source.Literals

/-!
# The ends of string literals

A literal can be told from what stands before and after it.  A text that begins with a literal
begins with only one, since each escape ends by itself.  A text that ends with a literal ends with
only one that does not follow a backslash, since between the quotes of a literal a quote always
follows a backslash.
-/

namespace InstanceState.Literal

/-! ### Escapes -/

theorem exists_of_mem_hexDigits {n : Nat} {d : Char} (h : d ∈ hexDigits₄ n) :
  ∃ k < 0x10, d = hexDigit k
  := by
  simp only [hexDigits₄, List.mem_cons, List.not_mem_nil, or_false] at h
  rcases h with rfl | rfl | rfl | rfl <;> exact ⟨_, Nat.mod_lt _ (by decide), rfl⟩

/-- A character is escaped by a backslash and something that holds no second quote, or stands for
itself. -/
theorem escape_shape (c : Char) :
  (escape c = [c] ∧ c ≠ '"') ∨ ∃ d t, escape c = '\\' :: d :: t ∧ '"' ∉ t
  := by
  rcases escape_cases c with hnamed | ⟨-, -, hescape⟩ | ⟨hnamed, -, hescape⟩
  · right
    rcases eq_of_mem_named hnamed with rfl | rfl | rfl | rfl | rfl <;>
      exact ⟨_, [], rfl, List.not_mem_nil⟩
  · right
    use 'u', hexDigits₄ c.toNat, hescape
    have hdigit : ∀ k < 0x10, '"' ≠ hexDigit k := by
      decide
    intro hmem
    obtain ⟨k, hk, hquote⟩ := exists_of_mem_hexDigits hmem
    apply hdigit k hk hquote
  · left
    use hescape
    rintro rfl
    apply hnamed
    decide

theorem newline_not_mem_escape (c : Char) :
  '\n' ∉ escape c
  := by
  rcases escape_cases c with hnamed | ⟨-, -, hescape⟩ | ⟨hnamed, -, hescape⟩
  · rcases eq_of_mem_named hnamed with rfl | rfl | rfl | rfl | rfl <;> decide
  · have hdigit : ∀ k < 0x10, '\n' ≠ hexDigit k := by
      decide
    rw [hescape, List.mem_cons, List.mem_cons, not_or, not_or]
    refine ⟨by decide, by decide, ?_⟩
    intro hmem
    obtain ⟨k, hk, hnewline⟩ := exists_of_mem_hexDigits hmem
    apply hdigit k hk hnewline
  · rw [hescape, List.mem_singleton]
    rintro rfl
    apply hnamed
    decide

/-- A literal stands on one line. -/
theorem newline_not_mem_quote (t : Text) :
  '\n' ∉ quote t
  := by
  rw [quote, List.mem_cons, List.mem_append, List.mem_flatMap]
  rintro (h | ⟨c, -, h⟩ | h)
  · cases h
  · exact newline_not_mem_escape c h
  · cases List.mem_singleton.1 h

/-- The first character of a text, with the rest of its escape if it begins one, and what follows
it. -/
def cutEscape : Text → Text × Text
  | '\\' :: 'u' :: t => ('\\' :: 'u' :: t.take 4, t.drop 4)
  | '\\' :: c :: t => (['\\', c], t)
  | t => (t.take 1, t.drop 1)

theorem cutEscape_escape (c : Char) (rest : Text) :
  cutEscape (escape c ++ rest) = (escape c, rest)
  := by
  rcases escape_cases c with hnamed | ⟨-, -, hescape⟩ | ⟨hnamed, -, hescape⟩
  · rcases eq_of_mem_named hnamed with rfl | rfl | rfl | rfl | rfl <;> rfl
  · rw [hescape]
    rfl
  · have hne : c ≠ '\\' := by
      rintro rfl
      apply hnamed
      decide
    rw [hescape, List.singleton_append, cutEscape]
    · rfl
    · intro t h
      apply hne (List.cons.inj h).1
    · intro d t h
      apply hne (List.cons.inj h).1

theorem escape_injective :
  Function.Injective escape
  := by
  intro c d h
  have htranslated := (translate_escape c).symm.trans (h ▸ translate_escape d)
  rw [Option.some.injEq, Prod.mk.injEq] at htranslated
  have hread := (read_translated c).symm.trans (htranslated.2 ▸ read_translated d)
  rw [Option.some.injEq, Prod.mk.injEq] at hread
  obtain ⟨hcd, -⟩ := Utf16.encodeChar_append_inj (congrArg (· ++ []) hread.2)
  exact hcd

theorem escape_append_inj {c d : Char} {x y : Text} (h : escape c ++ x = escape d ++ y) :
  c = d ∧ x = y
  := by
  have hcut := congrArg cutEscape h
  rw [cutEscape_escape, cutEscape_escape, Prod.mk.injEq] at hcut
  obtain ⟨hescape, hrest⟩ := hcut
  constructor
  · apply escape_injective hescape
  · exact hrest

theorem escape_append_ne_quote (c : Char) (x y : Text) :
  escape c ++ x ≠ '"' :: y
  := by
  intro h
  rcases escape_shape c with ⟨hescape, hne⟩ | ⟨d, t, hescape, -⟩
  · rw [hescape] at h
    apply hne (List.cons.inj h).1
  · rw [hescape] at h
    cases (List.cons.inj h).1

/-- A quote in an escape is what a backslash escapes. -/
theorem eq_of_escape_eq {c : Char} {a b : Text} (h : escape c = a ++ '"' :: b) :
  a = ['\\']
  := by
  rcases escape_shape c with ⟨hescape, hne⟩ | ⟨d, t, hescape, hquote⟩
  · rw [hescape, List.singleton_eq_append_iff] at h
    rcases h with ⟨-, h⟩ | ⟨-, h⟩
    · exact absurd (List.cons.inj h).1.symm hne
    · cases h
  · rw [hescape] at h
    rcases a with _ | ⟨e, _ | ⟨e', a⟩⟩
    · cases (List.cons.inj h).1
    · rw [(List.cons.inj h).1]
    · obtain ⟨-, hrest⟩ := List.cons.inj (List.cons.inj h).2
      exact absurd (hrest ▸ List.mem_append_cons_self) hquote

/-! ### Literals at the beginning of a text -/

theorem flatMap_escape_append_inj {s t x y : Text}
    (h : s.flatMap escape ++ '"' :: x = t.flatMap escape ++ '"' :: y) :
  s = t ∧ x = y
  := by
  induction s generalizing t with
  | nil =>
    cases t with
    | nil => exact ⟨rfl, (List.cons.inj h).2⟩
    | cons d t =>
      rw [List.flatMap_cons, List.append_assoc] at h
      exact absurd h.symm (escape_append_ne_quote d _ _)
  | cons c s ih =>
    cases t with
    | nil =>
      rw [List.flatMap_cons, List.append_assoc] at h
      exact absurd h (escape_append_ne_quote c _ _)
    | cons d t =>
      rw [List.flatMap_cons, List.flatMap_cons, List.append_assoc, List.append_assoc] at h
      obtain ⟨rfl, hrest⟩ := escape_append_inj h
      obtain ⟨rfl, hxy⟩ := ih hrest
      exact ⟨rfl, hxy⟩

/-- A text begins with at most one literal. -/
theorem quote_append_inj {s t x y : Text} (h : quote s ++ x = quote t ++ y) :
  s = t ∧ x = y
  := by
  rw [quote, quote, List.cons_append, List.cons_append, List.append_assoc, List.append_assoc] at h
  apply flatMap_escape_append_inj (List.cons.inj h).2

/-! ### Literals at the end of a text -/

/-- Between the quotes of a literal a quote follows a backslash. -/
theorem getLast?_of_flatMap_escape_eq {t a b : Text} (h : t.flatMap escape = a ++ '"' :: b) :
  a.getLast? = some '\\'
  := by
  induction t generalizing a with
  | nil =>
    rw [List.flatMap_nil] at h
    exact absurd h.symm (List.append_ne_nil_of_right_ne_nil _ (List.cons_ne_nil _ _))
  | cons c t ih =>
    rw [List.flatMap_cons, List.append_eq_append_iff] at h
    -- The quote stands behind the first escape, or in it.
    rcases h with ⟨a', rfl, hrest⟩ | ⟨b', hescape, hrest⟩
    · rw [List.getLast?_append, ih hrest, Option.some_or]
    · cases b' with
      | nil =>
        have hlast : [].getLast? = some '\\' := ih hrest.symm
        cases hlast
      | cons d b' =>
        obtain ⟨rfl, -⟩ := List.cons.inj hrest
        rw [eq_of_escape_eq hescape]
        rfl

/-- A literal that ends with another one is that one, or goes on before it with a backslash. -/
theorem eq_of_quote_eq_append {s t w : Text} (hw : w.getLast? ≠ some '\\')
    (h : quote s = w ++ quote t) :
  s = t
  := by
  cases w with
  | nil =>
    obtain ⟨hst, -⟩ := quote_append_inj (congrArg (· ++ []) h)
    exact hst
  | cons c w =>
    -- The shorter literal begins between the quotes of the longer one.
    have hinside : s.flatMap escape = w ++ '"' :: t.flatMap escape := by
      obtain ⟨-, hrest⟩ := List.cons.inj h
      have hends : s.flatMap escape ++ ['"'] = (w ++ '"' :: t.flatMap escape) ++ ['"'] := by
        rw [hrest, List.append_assoc]
        rfl
      apply List.append_cancel_right hends
    have hlast := getLast?_of_flatMap_escape_eq hinside
    rw [List.getLast?_cons, hlast] at hw
    contradiction

theorem getLast?_ne_of_append {u w : Text} {c : Char} (h : (u ++ w).getLast? ≠ some c) :
  w.getLast? ≠ some c
  := by
  intro hw
  rw [List.getLast?_append, hw] at h
  contradiction

/-- A text ends with at most one literal that does not follow a backslash. -/
theorem append_quote_inj {u v s t : Text} (hu : u.getLast? ≠ some '\\')
    (hv : v.getLast? ≠ some '\\') (h : u ++ quote s = v ++ quote t) :
  s = t
  := by
  rw [List.append_eq_append_iff] at h
  rcases h with ⟨w, rfl, h⟩ | ⟨w, rfl, h⟩
  · apply eq_of_quote_eq_append (getLast?_ne_of_append hv) h
  · symm
    apply eq_of_quote_eq_append (getLast?_ne_of_append hu) h

end InstanceState.Literal
