import InstanceState.Proofs.Source.LiteralEnds
import Mathlib.Algebra.Ring.Parity
import Mathlib.Data.List.Induction

/-!
# Complete literals

The literal of a text is one complete literal, and no two texts have the same.  In a source text a
backslash begins a unit given by its code exactly if an even number of backslashes stands right
before it.  Between the quotes of a literal every escape leaves that number even, so that escapes
do not run into one another, and every quote has an odd number of backslashes before it.
-/

namespace InstanceState.Literal

/-! ### Backslashes at the end of a text -/

/-- The number of backslashes at the end of a text. -/
def trailingBackslashes (t : Text) : Nat := (t.reverse.takeWhile (· = '\\')).length

theorem trailingBackslashes_concat (t : Text) :
  trailingBackslashes (t ++ ['\\']) = trailingBackslashes t + 1
  := by
  rw [trailingBackslashes, List.reverse_append, List.reverse_singleton, List.singleton_append,
    List.takeWhile_cons_of_pos (by decide), List.length_cons, trailingBackslashes]

theorem trailingBackslashes_concat_of_ne {c : Char} (h : c ≠ '\\') (t : Text) :
  trailingBackslashes (t ++ [c]) = 0
  := by
  rw [trailingBackslashes, List.reverse_append, List.reverse_singleton, List.singleton_append,
    List.takeWhile_cons_of_neg (by simpa using h), List.length_nil]

/-- An escape ends in two backslashes or in another character. -/
theorem escape_ends (c : Char) :
  escape c = ['\\', '\\'] ∨ ∃ s d, escape c = s ++ [d] ∧ d ≠ '\\'
  := by
  rcases escape_cases c with hnamed | ⟨-, -, hescape⟩ | ⟨hnamed, -, hescape⟩
  · rcases eq_of_mem_named hnamed with rfl | rfl | rfl | rfl | rfl
    · right
      use ['\\'], '"'
      decide
    · left
      rfl
    · right
      use ['\\'], 'n'
      decide
    · right
      use ['\\'], 'r'
      decide
    · right
      use ['\\'], 't'
      decide
  · right
    have hdigit : ∀ k < 0x10, hexDigit k ≠ '\\' := by
      decide
    use '\\' :: 'u' :: (hexDigits₄ c.toNat).dropLast, hexDigit (c.toNat % 0x10)
    constructor
    · rw [hescape]
      rfl
    · apply hdigit
      apply Nat.mod_lt
      decide
  · right
    use [], c, hescape
    rintro rfl
    apply hnamed
    decide

/-- An escape leaves the number of backslashes before it even. -/
theorem even_trailingBackslashes_escape {t : Text} (h : Even (trailingBackslashes t)) (c : Char) :
  Even (trailingBackslashes (t ++ escape c))
  := by
  rcases escape_ends c with hescape | ⟨s, d, hescape, hd⟩
  · have hsplit : t ++ escape c = t ++ ['\\'] ++ ['\\'] := by
      rw [hescape, List.append_assoc]
      rfl
    rw [hsplit, trailingBackslashes_concat, trailingBackslashes_concat, Nat.even_add_one,
      Nat.even_add_one, not_not]
    apply h
  · rw [hescape, ← List.append_assoc, trailingBackslashes_concat_of_ne hd]
    decide

theorem even_trailingBackslashes_flatMap (t : Text) :
  Even (trailingBackslashes (t.flatMap escape))
  := by
  induction t using List.reverseRecOn with
  | nil => decide
  | append_singleton t c ih =>
    rw [List.flatMap_append, List.flatMap_singleton]
    apply even_trailingBackslashes_escape ih

/-! ### Where units begin -/

theorem exists_of_transduce_append {σ α β : Type} {step : σ → α → Option (σ × List β)} {q q'' : σ}
    {before after : List α} {out : List β}
    (h : transduce step q (before ++ after) = some (q'', out)) :
  ∃ q' first second, transduce step q before = some (q', first)
    ∧ transduce step q' after = some (q'', second)
  := by
  induction before generalizing q out with
  | nil => use q, [], out, rfl, h
  | cons a before ih =>
    rw [List.cons_append, transduce, Option.bind_eq_some_iff] at h
    obtain ⟨read, hstep, h⟩ := h
    rw [Option.map_eq_some_iff] at h
    obtain ⟨later, hlater, h⟩ := h
    cases h
    obtain ⟨q', first, second, hfirst, hsecond⟩ := ih hlater
    use q', read.2 ++ first, second
    constructor
    · apply transduce_cons hstep hfirst
    · apply hsecond

/-- One more character keeps track of whether the number of backslashes before is odd. -/
theorem Translation.step_parity {q q' : Translation} {c : Char} {out : Units} {before : Text}
    (hq : q = .backslash ↔ Odd (trailingBackslashes before))
    (hstep : Translation.step q c = some (q', out)) :
  q' = .backslash ↔ Odd (trailingBackslashes (before ++ [c]))
  := by
  by_cases hc : c = '\\'
  · subst hc
    rw [trailingBackslashes_concat, Nat.odd_add_one, ← hq]
    cases q with
    | plain =>
      cases hstep
      decide
    | backslash =>
      cases hstep
      decide
    | marked => cases hstep
    | digits count value => cases hstep
  · have hodd : ¬ Odd (trailingBackslashes (before ++ [c])) := by
      rw [trailingBackslashes_concat_of_ne hc]
      decide
    apply iff_of_false _ hodd
    rintro rfl
    cases q with
    | plain =>
      rw [Translation.step, if_neg hc] at hstep
      cases hstep
    | backslash =>
      rw [Translation.step] at hstep
      split at hstep <;> cases hstep
    | marked =>
      rw [Translation.step] at hstep
      split at hstep
      · cases hstep
      · obtain ⟨d, -, hd⟩ := Option.map_eq_some_iff.1 hstep
        cases hd
    | digits count value =>
      rw [Translation.step] at hstep
      obtain ⟨d, -, hd⟩ := Option.map_eq_some_iff.1 hstep
      split at hd <;> cases hd

/-- The translation waits for what a backslash begins exactly after an odd number of
backslashes. -/
theorem translation_eq_backslash_iff {before : Text} {q : Translation} {out : Units}
    (h : transduce Translation.step .plain before = some (q, out)) :
  q = .backslash ↔ Odd (trailingBackslashes before)
  := by
  induction before using List.reverseRecOn generalizing q out with
  | nil =>
    cases h
    decide
  | append_singleton before c ih =>
    obtain ⟨q', first, second, hfirst, hsecond⟩ := exists_of_transduce_append h
    rw [transduce, Option.bind_eq_some_iff] at hsecond
    obtain ⟨read, hstep, hsecond⟩ := hsecond
    cases hsecond
    apply Translation.step_parity (ih hfirst) hstep

/-- In a source text that can be translated, a backslash may begin a unit exactly if an even number
of backslashes stands before it. -/
theorem exists_translation_before {source before after : Text} {units : Units}
    (h : translate? source = some units) (hsource : source = before ++ '\\' :: after) :
  ∃ out, transduce Translation.step .plain before
    = some (if Even (trailingBackslashes before) then .plain else .backslash, out)
  := by
  rw [translate?, Option.bind_eq_some_iff] at h
  obtain ⟨read, hread, -⟩ := h
  rw [hsource] at hread
  obtain ⟨q, first, second, hfirst, hsecond⟩ := exists_of_transduce_append hread
  have hparity := translation_eq_backslash_iff hfirst
  use first
  rw [hfirst]
  cases q with
  | plain =>
    rw [if_pos]
    rw [← Nat.not_odd_iff_even, ← hparity]
    decide
  | backslash =>
    rw [if_neg]
    rw [Nat.not_even_iff_odd, ← hparity]
  | marked => cases hsecond
  | digits count value => cases hsecond

/-! ### Between the quotes -/

theorem isControl_of_mem_escape {c d : Char} (h : d ∈ escape c) :
  isControl d = false
  := by
  rcases escape_cases c with hnamed | ⟨-, -, hescape⟩ | ⟨hnamed, hcode, hescape⟩
  · have hall : (escape c).all (fun d => !isControl d) = true := by
      rcases eq_of_mem_named hnamed with rfl | rfl | rfl | rfl | rfl <;> decide
    simpa using List.all_eq_true.1 hall d h
  · have hdigit : ∀ k < 0x10, isControl (hexDigit k) = false := by
      decide
    rw [hescape, List.mem_cons, List.mem_cons] at h
    rcases h with rfl | rfl | h
    · decide
    · decide
    · obtain ⟨k, hk, rfl⟩ := exists_of_mem_hexDigits h
      apply hdigit k hk
  · rw [hescape, List.mem_singleton] at h
    subst h
    -- A control character that is not written by its code is a named one.
    rw [byCode, Bool.and_eq_false_iff] at hcode
    rcases hcode with hcode | hcode
    · apply hcode
    · exfalso
      apply hnamed
      rw [Bool.not_eq_false', Bool.or_eq_true, Bool.or_eq_true, decide_eq_true_eq,
        decide_eq_true_eq, decide_eq_true_eq] at hcode
      rcases hcode with (rfl | rfl) | rfl <;> decide

theorem exists_of_flatMap_eq_append_cons {α β : Type} {f : α → List β} {xs : List α}
    {a b : List β} {y : β} (h : xs.flatMap f = a ++ y :: b) :
  ∃ before x after u v, xs = before ++ x :: after ∧ f x = u ++ y :: v
    ∧ a = before.flatMap f ++ u
  := by
  induction xs generalizing a with
  | nil => cases a <;> cases h
  | cons x xs ih =>
    rw [List.flatMap_cons, List.append_eq_append_iff] at h
    rcases h with ⟨a', rfl, hrest⟩ | ⟨v, hx, hrest⟩
    · obtain ⟨before, x', after, u, v, rfl, hx', rfl⟩ := ih hrest
      use x :: before, x', after, u, v, rfl, hx'
      rw [List.flatMap_cons, List.append_assoc]
    · cases v with
      | nil =>
        obtain ⟨before, x', after, u, v, rfl, hx', ha⟩ := ih (a := []) hrest.symm
        use x :: before, x', after, u, v, rfl, hx'
        rw [List.flatMap_cons, List.append_assoc, ← ha, hx, List.append_nil, List.append_nil]
      | cons y' v =>
        cases hrest
        use [], x, xs, a, v, rfl, hx
        rfl

/-- Between the quotes of a literal a quote follows an odd number of backslashes. -/
theorem odd_trailingBackslashes_of_quote {t a b : Text} (h : t.flatMap escape = a ++ '"' :: b) :
  Odd (trailingBackslashes a)
  := by
  obtain ⟨before, c, after, u, v, -, hescape, rfl⟩ := exists_of_flatMap_eq_append_cons h
  rw [eq_of_escape_eq hescape, trailingBackslashes_concat]
  apply Even.add_one
  apply even_trailingBackslashes_flatMap

theorem ne_lineEnd_of_mem_translated {c : Char} {u : UInt16} (h : u ∈ translated c) :
  u ≠ 0x0A ∧ u ≠ 0x0D
  := by
  have hself : c ∉ named → u ∈ Utf16.encodeChar c → u ≠ 0x0A ∧ u ≠ 0x0D := by
    intro hnamed hu
    constructor
    · apply ne_of_mem_encodeChar (d := '\n') hnamed (by decide) hu
    · apply ne_of_mem_encodeChar (d := '\r') hnamed (by decide) hu
  rcases escape_cases c with hnamed | ⟨hnamed, hcode, -⟩ | ⟨hnamed, hcode, hescape⟩
  · have hends : 0x0A ∉ translated c ∧ 0x0D ∉ translated c := by
      rcases eq_of_mem_named hnamed with rfl | rfl | rfl | rfl | rfl <;> decide
    constructor
    · apply ne_of_mem_of_not_mem h hends.1
    · apply ne_of_mem_of_not_mem h hends.2
  · rw [translated, if_pos hcode] at h
    apply hself hnamed h
  · rw [translated, if_neg (Bool.eq_false_iff.1 hcode), hescape, Utf16.encode,
      List.flatMap_singleton] at h
    apply hself hnamed h

/-! ### Literals -/

theorem quote_injective :
  Function.Injective quote
  := by
  intro s t h
  have hst : quote s ++ [] = quote t ++ [] := by
    rw [h]
  apply (quote_append_inj hst).1

/-- The literal of a text is one complete literal and denotes the text.  Between its quotes stand no
control character and no quote that is not escaped, and the code units there hold no line end.
The translation to code units takes a backslash in it for the beginning of a unit exactly if an
even number of backslashes stands before it.  No two texts have the same literal. -/
theorem quote_denotes_text :
  (∀ t : Text, value? (quote t) = some (Utf16.encode t)
      ∧ ∃ body units, quote t = '"' :: (body ++ ['"'])
        ∧ translate? (quote t) = some (0x22 :: (units ++ [0x22]))
        ∧ (∀ c ∈ body, isControl c = false)
        ∧ (∀ a b, body = a ++ '"' :: b → Odd (trailingBackslashes a))
        ∧ ∀ u ∈ units, u ≠ 0x0A ∧ u ≠ 0x0D)
    ∧ (∀ t before after : Text, quote t = before ++ '\\' :: after →
      ∃ out, transduce Translation.step .plain before
        = some (if Even (trailingBackslashes before) then .plain else .backslash, out))
    ∧ Function.Injective quote
  := by
  refine ⟨?_, ?_, quote_injective⟩
  · intro t
    use value?_quote t, t.flatMap escape, t.flatMap translated, rfl, translate?_quote t
    refine ⟨?_, ?_, ?_⟩
    · intro d hd
      obtain ⟨c, -, hc⟩ := List.mem_flatMap.1 hd
      apply isControl_of_mem_escape hc
    · intro a b h
      apply odd_trailingBackslashes_of_quote h
    · intro u hu
      obtain ⟨c, -, hc⟩ := List.mem_flatMap.1 hu
      apply ne_lineEnd_of_mem_translated hc
  · intro t before after h
    apply exists_translation_before (translate?_quote t) h

/-- A text that reads like an escape, with escapes next to one another on both of its sides. -/
def tangled : Text := "\\\x01\\u0041\"\\"

/-- Of the three backslashes at the beginning of its literal, the third begins a unit. -/
theorem tangled_denotes_text :
  quote tangled = ↑"\"\\\\\\u0001\\\\u0041\\\"\\\\\""
    ∧ value? "\"\\\\\\u0001\\\\u0041\\\"\\\\\"" = some (Utf16.encode tangled)
    ∧ ∃ out, transduce Translation.step .plain "\"\\\\" = some (.plain, out)
  := by
  obtain ⟨hvalue, hparity, -⟩ := quote_denotes_text
  have hquote : quote tangled = ↑"\"\\\\\\u0001\\\\u0041\\\"\\\\\"" := by
    decide
  have hvalue := (hvalue tangled).1
  rw [hquote] at hvalue
  use hquote, hvalue
  apply hparity tangled "\"\\\\" "u0001\\\\u0041\\\"\\\\\""
  apply hquote

end InstanceState.Literal
