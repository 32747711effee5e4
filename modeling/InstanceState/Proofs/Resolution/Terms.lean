import InstanceState.Proofs.Resolution.Shape

/-!
# Type terms

Well-formed type names as terms, each with the blank characters it is written with: plain names,
names with type arguments, and arrays of these.  A term is rendered as a text that starts and ends
with other characters, is unbroken, and has the shape of the term.
-/

namespace InstanceState

/-- Whether a character may stand in a plain name. -/
def isNameChar (c : Char) : Bool :=
  !Text.isBlank c && c ∉ ['<', '>', ',', '[', ']', '?']

/-- A name without blank characters, brackets, commas and question marks. -/
structure PlainName where
  text : Text
  ne_nil : text ≠ []
  all_isNameChar : text.all isNameChar = true

/-- The blank characters at one place of a text. -/
structure Blanks where
  text : Text
  allBlank : Text.AllBlank text

mutual

/-- A type that is not an array. -/
inductive ElementTerm where
  /-- A plain name. -/
  | name (n : PlainName)
  /-- A name with type arguments. -/
  | applied (base : PlainName) (gap : Blanks) (arguments : ArgumentTerms)

/-- A type. -/
inductive TypeTerm where
  | element (e : ElementTerm)
  /-- The arrays of an element. -/
  | array (e : ElementTerm) (gap : Blanks)

/-- A type argument. -/
inductive ArgumentTerm where
  | type (t : TypeTerm)
  /-- Any type. -/
  | any
  /-- Any type that extends the given one. -/
  | extending (t : TypeTerm)
  /-- Any type that the given one extends. -/
  | extendedBy (t : TypeTerm)

/-- One or more type arguments, each between blank characters. -/
inductive ArgumentTerms where
  | single (before : Blanks) (a : ArgumentTerm) (after : Blanks)
  | cons (before : Blanks) (a : ArgumentTerm) (after : Blanks) (rest : ArgumentTerms)

end

/-! ### Rendering -/

mutual

/-- The text of a type that is not an array. -/
def ElementTerm.render : ElementTerm → Text
  | .name n => n.text
  | .applied base gap arguments => base.text ++ gap.text ++ '<' :: (arguments.render ++ ['>'])

/-- The text of a type. -/
def TypeTerm.render : TypeTerm → Text
  | .element e => e.render
  | .array e gap => e.render ++ gap.text ++ "[]"

/-- The text of a type argument. -/
def ArgumentTerm.render : ArgumentTerm → Text
  | .type t => t.render
  | .any => "?"
  | .extending t => "? extends " ++ t.render
  | .extendedBy t => "? super " ++ t.render

/-- The text of type arguments, with commas between them. -/
def ArgumentTerms.render : ArgumentTerms → Text
  | .single before a after => before.text ++ a.render ++ after.text
  | .cons before a after rest => before.text ++ a.render ++ after.text ++ ',' :: rest.render

end

/-- The text of the upper bound of a type argument; an argument without one is its own. -/
def ArgumentTerm.boundText : ArgumentTerm → Text
  | .type t => t.render
  | .extending t => t.render
  | a => a.render

/-- The type arguments in order. -/
def ArgumentTerms.toList : ArgumentTerms → List ArgumentTerm
  | .single _ a _ => [a]
  | .cons _ a _ rest => a :: rest.toList

/-! ### Characters -/

theorem isBlank_of_isNameChar {c : Char} (h : isNameChar c = true) :
  Text.isBlank c = false
  := by
  rw [isNameChar, Bool.and_eq_true, Bool.not_eq_true'] at h
  apply h.1

theorem PlainName.isNameChar_of_mem (n : PlainName) {c : Char} (hc : c ∈ n.text) :
  isNameChar c = true
  := List.all_eq_true.1 n.all_isNameChar c hc

theorem PlainName.not_mem (n : PlainName) {c : Char} (hc : isNameChar c = false) :
  c ∉ n.text
  := by
  intro h
  rw [n.isNameChar_of_mem h] at hc
  contradiction

theorem PlainName.exists_cons (n : PlainName) :
  ∃ c s, n.text = c :: s ∧ isNameChar c = true
  := by
  obtain ⟨c, s, h⟩ := List.exists_cons_of_ne_nil n.ne_nil
  use c, s, h
  apply n.isNameChar_of_mem
  rw [h]
  apply List.mem_cons_self

theorem PlainName.exists_concat (n : PlainName) :
  ∃ s c, n.text = s ++ [c] ∧ isNameChar c = true
  := by
  use n.text.dropLast, n.text.getLast n.ne_nil
  constructor
  · symm
    apply List.dropLast_append_getLast
  · apply n.isNameChar_of_mem
    apply List.getLast_mem

theorem Blanks.not_mem (w : Blanks) {c : Char} (hc : Text.isBlank c = false) :
  c ∉ w.text
  := by
  intro h
  rw [w.allBlank c h] at hc
  contradiction

theorem PlainName.openAngle_not_mem (n : PlainName) (w : Blanks) :
  '<' ∉ n.text ++ w.text
  := by
  rw [List.mem_append]
  rintro (h | h)
  · apply n.not_mem (by decide) h
  · apply w.not_mem (by decide) h

/-! ### Ends of texts -/

theorem ElementTerm.exists_cons (e : ElementTerm) :
  ∃ c s, e.render = c :: s ∧ isNameChar c = true
  := by
  cases e with
  | name n => apply n.exists_cons
  | applied base gap arguments =>
    obtain ⟨c, s, h, hc⟩ := base.exists_cons
    use c, s ++ gap.text ++ '<' :: (arguments.render ++ ['>'])
    rw [render, h]
    use rfl, hc

theorem TypeTerm.exists_cons (t : TypeTerm) :
  ∃ c s, t.render = c :: s ∧ isNameChar c = true
  := by
  cases t with
  | element e => apply e.exists_cons
  | array e gap =>
    obtain ⟨c, s, h, hc⟩ := e.exists_cons
    use c, s ++ gap.text ++ "[]"
    rw [render, h]
    use rfl, hc

theorem ElementTerm.exists_concat (e : ElementTerm) :
  ∃ s c, e.render = s ++ [c] ∧ Text.isBlank c = false
  := by
  cases e with
  | name n =>
    obtain ⟨s, c, h, hc⟩ := n.exists_concat
    use s, c, h, isBlank_of_isNameChar hc
  | applied base gap arguments =>
    use base.text ++ gap.text ++ '<' :: arguments.render, '>'
    constructor
    · simp [render]
    · decide

theorem TypeTerm.exists_concat (t : TypeTerm) :
  ∃ s c, t.render = s ++ [c] ∧ Text.isBlank c = false
  := by
  cases t with
  | element e => apply e.exists_concat
  | array e gap =>
    use e.render ++ gap.text ++ ['['], ']'
    constructor
    · simp [render]
    · decide

theorem TypeTerm.trim_render (t : TypeTerm) :
  Text.trim t.render = t.render
  := by
  obtain ⟨c, s, h, hc⟩ := t.exists_cons
  obtain ⟨s', d, h', hd⟩ := t.exists_concat
  apply Text.trim_eq_self h h' (isBlank_of_isNameChar hc) hd

theorem ElementTerm.trim_render (e : ElementTerm) :
  Text.trim e.render = e.render
  := TypeTerm.trim_render (.element e)

theorem ArgumentTerm.trim_render (a : ArgumentTerm) :
  Text.trim a.render = a.render
  := by
  have hmark : ∀ (s : Text) (t : TypeTerm),
      Text.trim ('?' :: (s ++ t.render)) = '?' :: (s ++ t.render) := by
    intro s t
    obtain ⟨s', d, h, hd⟩ := t.exists_concat
    have hlast : '?' :: (s ++ t.render) = '?' :: (s ++ s') ++ [d] := by
      rw [h]
      simp
    apply Text.trim_eq_self rfl hlast (by decide) hd
  cases a with
  | type t => apply t.trim_render
  | any => decide
  | extending t => apply hmark
  | extendedBy t => apply hmark

theorem PlainName.trim_text (n : PlainName) :
  Text.trim n.text = n.text
  := ElementTerm.trim_render (.name n)

theorem PlainName.trim_append (n : PlainName) (w : Blanks) :
  Text.trim (n.text ++ w.text) = n.text
  := by
  have h := Text.trim_append_append Text.allBlank_nil w.allBlank n.text
  rw [List.nil_append] at h
  rw [h, n.trim_text]

/-! ### Parts -/

section

open TypeShape

theorem isInert_of_isNameChar {c : Char} (h : isNameChar c = true) :
  isInert c = true
  := by
  simp [isNameChar] at h
  simp [isInert, h]

theorem isInert_of_isBlank {c : Char} (h : Text.isBlank c = true) :
  isInert c = true
  := by
  have hmarks : ['<', '>', ','].all (fun d => !Text.isBlank d) = true := by
    decide
  rw [isInert, decide_eq_true_eq]
  intro hc
  have hblank := List.all_eq_true.1 hmarks c hc
  rw [h] at hblank
  contradiction

theorem PlainName.isUnbroken (n : PlainName) :
  IsUnbroken 0 n.text
  := by
  apply isUnbroken_of_all
  rw [List.all_eq_true]
  intro c hc
  apply isInert_of_isNameChar (n.isNameChar_of_mem hc)

theorem Blanks.isUnbroken (w : Blanks) :
  IsUnbroken 0 w.text
  := by
  apply isUnbroken_of_all
  rw [List.all_eq_true]
  intro c hc
  apply isInert_of_isBlank (w.allBlank c hc)

mutual

theorem ElementTerm.isUnbroken_render : ∀ e : ElementTerm, IsUnbroken 0 e.render
  | .name n => n.isUnbroken
  | .applied base gap arguments => by
      apply (base.isUnbroken.append gap.isUnbroken).append
      apply IsUnbroken.enclose arguments.isUnbroken_render

/-- No comma in the text of a type separates parts. -/
theorem TypeTerm.isUnbroken_render : ∀ t : TypeTerm, IsUnbroken 0 t.render
  | .element e => e.isUnbroken_render
  | .array e gap => by
      apply (e.isUnbroken_render.append gap.isUnbroken).append
      apply isUnbroken_of_all
      decide

theorem ArgumentTerm.isUnbroken_render : ∀ a : ArgumentTerm, IsUnbroken 0 a.render
  | .type t => t.isUnbroken_render
  | .any => by
      apply isUnbroken_of_all
      decide
  | .extending t => by
      apply IsUnbroken.append _ t.isUnbroken_render
      apply isUnbroken_of_all
      decide
  | .extendedBy t => by
      apply IsUnbroken.append _ t.isUnbroken_render
      apply isUnbroken_of_all
      decide

/-- Between angle brackets, no comma in the text of type arguments separates parts. -/
theorem ArgumentTerms.isUnbroken_render : ∀ as : ArgumentTerms, IsUnbroken 1 as.render
  | .single before a after => by
      apply IsUnbroken.mono _ (Nat.zero_le 1)
      apply (before.isUnbroken.append a.isUnbroken_render).append after.isUnbroken
  | .cons before a after rest => by
      have ha := (before.isUnbroken.append a.isUnbroken_render).append after.isUnbroken
      apply (ha.mono (Nat.zero_le 1)).append
      apply isUnbroken_comma.append rest.isUnbroken_render

end

/-- Without the blank characters around them, the parts of type arguments are the arguments. -/
theorem ArgumentTerms.trim_splitArguments : ∀ as : ArgumentTerms,
    (splitArguments 0 as.render).map Text.trim = as.toList.map ArgumentTerm.render
  | .single before a after => by
      have ha := (before.isUnbroken.append a.isUnbroken_render).append after.isUnbroken
      rw [render, splitArguments_of_isUnbroken ha, List.map_singleton,
        Text.trim_append_append before.allBlank after.allBlank, a.trim_render]
      rfl
  | .cons before a after rest => by
      have ha := (before.isUnbroken.append a.isUnbroken_render).append after.isUnbroken
      rw [render, splitArguments_append_comma ha, List.map_cons,
        Text.trim_append_append before.allBlank after.allBlank, a.trim_render,
        rest.trim_splitArguments]
      rfl

/-! ### Shapes -/

theorem ArgumentTerm.upperBound_render (a : ArgumentTerm) :
  upperBound a.render = a.boundText
  := by
  cases a with
  | type t =>
    have hmark : Text.after? "?" t.render = none := by
      obtain ⟨c, s, h, hc⟩ := t.exists_cons
      rw [Option.eq_none_iff_forall_ne_some]
      intro rest hrest
      rw [Text.after?_eq_some_iff, h] at hrest
      cases hrest
      contradiction
    have htype : upperBound t.render = t.render := by
      rw [upperBound, hmark, Option.bind_none]
    apply htype
  | any =>
    have hany : upperBound "?" = ↑"?" := by
      decide
    apply hany
  | extending t => apply t.trim_render
  | extendedBy t => rfl

theorem parse_name (n : PlainName) :
  parse (ElementTerm.name n).render = .plain n.text
  := by
  rw [parse_eq_plain, ElementTerm.trim_render, ElementTerm.render]
  · rw [ElementTerm.trim_render]
    apply n.not_mem
    decide
  · rw [ElementTerm.trim_render]
    apply n.not_mem
    decide

/-- A name with type arguments has its base and the upper bounds of its arguments as shape. -/
theorem parse_applied (base : PlainName) (gap : Blanks) (as : ArgumentTerms) :
  parse (ElementTerm.applied base gap as).render
    = .parameterized base.text (as.toList.map ArgumentTerm.boundText)
  := by
  have hbounds : (splitArguments 0 as.render).map (fun a => upperBound (Text.trim a))
      = as.toList.map ArgumentTerm.boundText := by
    rw [← Function.comp_def, ← List.map_map, as.trim_splitArguments, List.map_map]
    apply List.map_congr_left
    intro a _
    apply a.upperBound_render
  rw [parse_eq_parameterized (ElementTerm.trim_render _) (base.openAngle_not_mem gap),
    base.trim_append, hbounds]

/-- An array has its element as shape. -/
theorem parse_array (e : ElementTerm) (gap : Blanks) :
  parse (TypeTerm.array e gap).render = .array e.render
  := by
  rw [parse_eq_array_iff]
  use e.render ++ gap.text
  constructor
  · apply TypeTerm.trim_render
  · obtain ⟨s, c, h, hc⟩ := e.exists_concat
    rw [Text.trimEnd_append_of_allBlank gap.allBlank, h, Text.trimEnd_concat_of_not_blank hc]

end

end InstanceState
