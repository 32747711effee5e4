import InstanceState.Proofs.Hierarchy.Erasure
import InstanceState.Resolution.Shape

/-!
# Shapes of texts

The shape of a text by its last characters, and the parts of the text between its angle brackets.
A text is unbroken if no comma in it separates parts and it leaves as many brackets open as were
open before it.  Unbroken texts can be put one after another, and a text whose commas separate
parts is unbroken between brackets.  The parts of unbroken texts with commas between them are
these texts.
-/

namespace InstanceState.TypeShape

theorem parse_trim (type : Text) :
  parse (Text.trim type) = parse type
  := by
  rw [parse, Text.trim_trim, parse]

/-- An array type is its element, blank characters and a pair of brackets. -/
theorem parse_eq_array_iff {type element : Text} :
  parse type = .array element
    ↔ ∃ s, Text.trim type = s ++ "[]" ∧ element = Text.trimEnd s
  := by
  rw [parse]
  constructor
  · intro h
    split at h
    · rename_i s hs
      use s
      constructor
      · apply Text.before?_eq_some_iff.1 hs
      · cases h
        rfl
    · split at h <;> cases h
  · rintro ⟨s, hs, rfl⟩
    rw [Text.before?_eq_some_iff.2 hs]

theorem before?_eq_none {tail t : Text} {c : Char} (hc : c ∈ tail) (ht : c ∉ t) :
  Text.before? tail t = none
  := by
  rw [Option.eq_none_iff_forall_ne_some]
  intro rest h
  apply ht
  rw [Text.before?_eq_some_iff.1 h]
  apply List.mem_append_right _ hc

/-- A text with an angle bracket that is closed at the end has a base and arguments. -/
theorem parse_eq_parameterized {type a b : Text} (ht : Text.trim type = a ++ '<' :: (b ++ ">"))
    (ha : '<' ∉ a) :
  parse type
    = .parameterized (Text.trim a)
      ((splitArguments 0 b).map fun argument => upperBound (Text.trim argument))
  := by
  have hbrackets : Text.before? "[]" (Text.trim type) = none := by
    rw [Option.eq_none_iff_forall_ne_some]
    intro rest h
    rw [Text.before?_eq_some_iff, ht] at h
    have hlast := congrArg List.reverse h
    simp at hlast
  have hclose : Text.before? ">" (Text.trim type) = some (a ++ '<' :: b) := by
    rw [Text.before?_eq_some_iff, ht]
    simp
  have hopen : Text.cutFirst? '<' (a ++ '<' :: b) = some (a, b) := by
    rw [Text.cutFirst?_eq_some_iff]
    use rfl, ha
  rw [parse, hbrackets, hclose, Option.bind_some, hopen]

theorem parse_eq_plain {type : Text} (hclose : '>' ∉ Text.trim type)
    (hbracket : ']' ∉ Text.trim type) :
  parse type = .plain (Text.trim type)
  := by
  rw [parse, before?_eq_none (c := ']') (by simp) hbracket,
    before?_eq_none (c := '>') (by simp) hclose]
  rfl

/-- A type with a base and arguments is the base, a bracket, the arguments and a bracket. -/
theorem exists_of_parse_parameterized {type base : Text} {arguments : List Text}
    (h : parse type = .parameterized base arguments) :
  ∃ a b, Text.trim type = a ++ '<' :: (b ++ ">") ∧ '<' ∉ a ∧ base = Text.trim a
    ∧ arguments = (splitArguments 0 b).map fun argument => upperBound (Text.trim argument)
  := by
  rw [parse] at h
  split at h
  · cases h
  · split at h
    · rename_i a b hcut
      obtain ⟨inner, hclose, hopen⟩ := Option.bind_eq_some_iff.1 hcut
      obtain ⟨rfl, ha⟩ := Text.cutFirst?_eq_some_iff.1 hopen
      cases h
      use a, b
      refine ⟨?_, ha, rfl, rfl⟩
      rw [Text.before?_eq_some_iff.1 hclose, List.append_assoc, List.cons_append]
    · cases h

/-- The base of a type with arguments is its erasure. -/
theorem base_eq_erasure {type base : Text} {arguments : List Text}
    (h : parse type = .parameterized base arguments) :
  base = erasure type
  := by
  obtain ⟨a, b, htrim, ha, rfl, -⟩ := exists_of_parse_parameterized h
  rw [← erasure_trim, htrim, erasure_append_openAngle ha]

/-! ### Unbroken texts -/

/-- The parts with a text put before the first of them. -/
def joinHead (x : Text) (parts : List Text) : List Text := x.foldr consHead parts

theorem joinHead_append (x y : Text) (parts : List Text) :
  joinHead (x ++ y) parts = joinHead x (joinHead y parts)
  := List.foldr_append

theorem joinHead_cons (x p : Text) (parts : List Text) :
  joinHead x (p :: parts) = (x ++ p) :: parts
  := by
  induction x with
  | nil => rfl
  | cons c x ih =>
    rw [joinHead, List.foldr_cons, ← joinHead, ih]
    rfl

/-- Whether a text is read as a piece of one part, leaving as many brackets open as before, wherever
at least `least` brackets are open before it. -/
def IsUnbroken (least : Nat) (x : Text) : Prop :=
  ∀ depth, least ≤ depth → ∀ t,
    splitArguments depth (x ++ t) = joinHead x (splitArguments depth t)

theorem splitArguments_cons {depth : Nat} {c : Char} (h : ¬ (c = ',' ∧ depth = 0)) (t : Text) :
  splitArguments depth (c :: t) = consHead c (splitArguments (depthAfter depth c) t)
  := by
  rw [splitArguments, if_neg h]

theorem isUnbroken_nil (least : Nat) :
  IsUnbroken least []
  := by
  intro depth _ t
  rfl

theorem IsUnbroken.mono {least least' : Nat} {x : Text} (h : IsUnbroken least x)
    (hle : least ≤ least') :
  IsUnbroken least' x
  := by
  intro depth hdepth
  apply h depth (Nat.le_trans hle hdepth)

theorem IsUnbroken.append {least : Nat} {x y : Text} (hx : IsUnbroken least x)
    (hy : IsUnbroken least y) :
  IsUnbroken least (x ++ y)
  := by
  intro depth hdepth t
  rw [List.append_assoc, hx depth hdepth, hy depth hdepth, joinHead_append]

/-- Whether a character neither opens nor closes a bracket nor separates parts. -/
def isInert (c : Char) : Bool := c ∉ ['<', '>', ',']

theorem splitArguments_cons_of_isInert {c : Char} (h : isInert c = true) (depth : Nat) (t : Text) :
  splitArguments depth (c :: t) = consHead c (splitArguments depth t)
  := by
  have hne : c ≠ '<' ∧ c ≠ '>' ∧ c ≠ ',' := by
    simpa [isInert] using h
  obtain ⟨hopen, hclose, hcomma⟩ := hne
  rw [splitArguments_cons fun hc => hcomma hc.1, depthAfter, if_neg hopen, if_neg hclose]

theorem isUnbroken_of_all {x : Text} (h : x.all isInert = true) :
  IsUnbroken 0 x
  := by
  induction x with
  | nil => apply isUnbroken_nil
  | cons c x ih =>
    rw [List.all_cons, Bool.and_eq_true] at h
    obtain ⟨hc, hx⟩ := h
    intro depth hdepth t
    rw [List.cons_append, splitArguments_cons_of_isInert hc, ih hx depth hdepth]
    rfl

theorem isUnbroken_comma :
  IsUnbroken 1 [',']
  := by
  intro depth hdepth t
  have hne : depth ≠ 0 := Nat.one_le_iff_ne_zero.1 hdepth
  rw [List.singleton_append, splitArguments_cons fun h => hne h.2]
  rfl

/-- Between angle brackets, no comma separates parts. -/
theorem IsUnbroken.enclose {x : Text} (h : IsUnbroken 1 x) :
  IsUnbroken 0 ('<' :: (x ++ ['>']))
  := by
  intro depth _ t
  have hopen : depthAfter depth '<' = depth + 1 := rfl
  have hclose : depthAfter (depth + 1) '>' = depth := rfl
  rw [List.cons_append, splitArguments_cons (by simp), hopen, List.append_assoc,
    h (depth + 1) (Nat.le_add_left 1 depth), List.singleton_append, splitArguments_cons (by simp),
    hclose, joinHead, joinHead, List.foldr_cons, List.foldr_append]
  rfl

/-! ### The parts of a text -/

theorem splitArguments_of_isUnbroken {x : Text} (h : IsUnbroken 0 x) :
  splitArguments 0 x = [x]
  := by
  have hx := h 0 (Nat.le_refl 0) []
  rw [List.append_nil, splitArguments, joinHead_cons, List.append_nil] at hx
  apply hx

theorem splitArguments_append_comma {x : Text} (h : IsUnbroken 0 x) (t : Text) :
  splitArguments 0 (x ++ ',' :: t) = x :: splitArguments 0 t
  := by
  have hcomma : splitArguments 0 (',' :: t) = [] :: splitArguments 0 t := by
    rw [splitArguments, if_pos ⟨rfl, rfl⟩]
  rw [h 0 (Nat.le_refl 0), hcomma, joinHead_cons, List.append_nil]

theorem splitArguments_ne_nil (depth : Nat) (t : Text) :
  splitArguments depth t ≠ []
  := by
  cases t with
  | nil => apply List.cons_ne_nil
  | cons c t =>
    rw [splitArguments]
    split
    · apply List.cons_ne_nil
    · cases splitArguments (depthAfter depth c) t <;> apply List.cons_ne_nil

theorem joinWith_consHead (separator : Text) (c : Char) {parts : List Text} (h : parts ≠ []) :
  Text.joinWith separator (consHead c parts) = c :: Text.joinWith separator parts
  := by
  cases parts with
  | nil => contradiction
  | cons p parts => cases parts <;> rfl

/-- The parts with commas between them make up the text. -/
theorem joinWith_splitArguments (depth : Nat) (t : Text) :
  Text.joinWith [','] (splitArguments depth t) = t
  := by
  induction t generalizing depth with
  | nil => rfl
  | cons c t ih =>
    rw [splitArguments]
    split
    · rename_i hc
      obtain ⟨p, parts, hparts⟩ := List.exists_cons_of_ne_nil (splitArguments_ne_nil depth t)
      rw [hparts, Text.joinWith, ← hparts, ih, hc.1]
      rfl
    · rw [joinWith_consHead _ _ (splitArguments_ne_nil _ t), ih]

end InstanceState.TypeShape
