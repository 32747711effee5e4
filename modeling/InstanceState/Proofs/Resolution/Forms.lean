import InstanceState.Proofs.Resolution.Rules
import InstanceState.Proofs.Text.Pieces
import Mathlib.Data.List.DropRight
import Mathlib.Data.List.Forall2

/-!
# Forms of type texts

A text, balanced or not, is read in one of three forms: as an array, as a base with arguments, or as
a plain name.  `IsShapeOf` says what the forms are without the functions that read them, and leaves
one shape for each text.  The arguments are what the commas at bracket depth zero separate, so they
can be read one after the other.  Elements and arguments are shorter parts of the text, and so the
rules of resolution determine the command of every text.
-/

namespace InstanceState

namespace TypeShape

/-! ### Cuts between arguments -/

/-- The number of brackets that a text leaves open, from none before it; a bracket that closes none
is ignored. -/
def openBrackets (t : Text) : Nat := t.foldl depthAfter 0

/-- Whether the parts are what the commas of a text at bracket depth zero separate: with commas
between them they make up the text, and a comma of the text stands between two of them exactly if
no bracket is open before it. -/
structure IsCut (parts : List Text) (t : Text) : Prop where
  ne_nil : parts ≠ []
  joined : Text.joinWith [','] parts = t
  separates_iff : ∀ x y, t = x ++ ',' :: y →
    (openBrackets x = 0 ↔ ∃ before after, before ≠ [] ∧ after ≠ [] ∧ parts = before ++ after
      ∧ Text.joinWith [','] before = x ∧ Text.joinWith [','] after = y)

theorem consHead_append (c : Char) {parts : List Text} (h : parts ≠ []) (more : List Text) :
  consHead c (parts ++ more) = consHead c parts ++ more
  := by
  obtain ⟨p, parts, rfl⟩ := List.exists_cons_of_ne_nil h
  rfl

theorem joinWith_cons_cons (p q : Text) (parts : List Text) :
  Text.joinWith [','] (p :: q :: parts) = p ++ ',' :: Text.joinWith [','] (q :: parts)
  := by
  rw [Text.joinWith, List.append_assoc, List.singleton_append]

theorem prefix_joinWith (p : Text) (parts : List Text) :
  p <+: Text.joinWith [','] (p :: parts)
  := by
  cases parts with
  | nil => exact List.prefix_rfl
  | cons q parts =>
    rw [joinWith_cons_cons]
    apply List.prefix_append

/-- A comma before which every bracket is closed separates the parts before it from those after. -/
theorem splitArguments_append_of_closed {depth : Nat} {x : Text}
    (h : x.foldl depthAfter depth = 0) (y : Text) :
  splitArguments depth (x ++ ',' :: y) = splitArguments depth x ++ splitArguments 0 y
  := by
  induction x generalizing depth with
  | nil =>
    rw [List.foldl_nil] at h
    subst h
    rfl
  | cons c x ih =>
    rw [List.foldl_cons] at h
    rw [List.cons_append]
    by_cases hc : c = ',' ∧ depth = 0
    · obtain ⟨rfl, rfl⟩ := hc
      rw [splitArguments, if_pos ⟨rfl, rfl⟩, splitArguments, if_pos ⟨rfl, rfl⟩]
      exact congrArg _ (ih h)
    · rw [splitArguments_cons hc, splitArguments_cons hc, ih h,
        consHead_append c (splitArguments_ne_nil _ x)]

/-- Between two parts every bracket is closed. -/
theorem closed_of_splitArguments_eq_append {depth : Nat} {t p : Text} {before after : List Text}
    (hafter : after ≠ []) (h : splitArguments depth t = p :: before ++ after) :
  (Text.joinWith [','] (p :: before)).foldl depthAfter depth = 0
  := by
  induction t generalizing depth p before with
  | nil =>
    rw [splitArguments, List.cons_append, List.cons.injEq] at h
    exact absurd (List.append_eq_nil_iff.1 h.2.symm).2 hafter
  | cons c t ih =>
    by_cases hc : c = ',' ∧ depth = 0
    · obtain ⟨rfl, rfl⟩ := hc
      rw [splitArguments, if_pos ⟨rfl, rfl⟩, List.cons_append, List.cons.injEq] at h
      obtain ⟨rfl, h⟩ := h
      cases before with
      | nil => rfl
      | cons q before =>
        rw [joinWith_cons_cons]
        exact ih h
    · rw [splitArguments_cons hc] at h
      obtain ⟨q, parts, hparts⟩ :=
        List.exists_cons_of_ne_nil (splitArguments_ne_nil (depthAfter depth c) t)
      rw [hparts, consHead, List.cons_append, List.cons.injEq] at h
      obtain ⟨rfl, rfl⟩ := h
      have hjoined := joinWith_consHead [','] c (List.cons_ne_nil q before)
      rw [consHead] at hjoined
      rw [hjoined, List.foldl_cons]
      exact ih hparts

/-- The arguments are cut at the commas at bracket depth zero. -/
theorem isCut_splitArguments (t : Text) :
  IsCut (splitArguments 0 t) t
  where
  ne_nil := splitArguments_ne_nil 0 t
  joined := joinWith_splitArguments 0 t
  separates_iff := by
    rintro x y rfl
    constructor
    · intro h
      use splitArguments 0 x, splitArguments 0 y, splitArguments_ne_nil 0 x,
        splitArguments_ne_nil 0 y, splitArguments_append_of_closed h y,
        joinWith_splitArguments 0 x, joinWith_splitArguments 0 y
    · rintro ⟨before, after, hbefore, hafter, h, rfl, -⟩
      obtain ⟨p, before, rfl⟩ := List.exists_cons_of_ne_nil hbefore
      apply closed_of_splitArguments_eq_append hafter h

/-! ### A text is cut in one way -/

namespace IsCut

variable {p q t : Text} {parts : List Text}

/-- Between the first two parts every bracket is closed. -/
theorem closed (h : IsCut (p :: q :: parts) t) :
  openBrackets p = 0
  := by
  rw [h.separates_iff p (Text.joinWith [','] (q :: parts)) (by rw [← h.joined, joinWith_cons_cons])]
  use [p], q :: parts, List.cons_ne_nil p [], List.cons_ne_nil q parts, rfl, rfl

/-- In the first part, a bracket is open before each comma. -/
theorem not_closed (h : IsCut (p :: parts) t) {x y : Text} (hp : p = x ++ ',' :: y) :
  openBrackets x ≠ 0
  := by
  intro hclosed
  obtain ⟨z, ht⟩ := prefix_joinWith p parts
  rw [h.joined, hp, List.append_assoc, List.cons_append] at ht
  obtain ⟨before, after, hbefore, -, hparts, hx, -⟩ :=
    (h.separates_iff x (y ++ z) ht.symm).1 hclosed
  obtain ⟨q, before, rfl⟩ := List.exists_cons_of_ne_nil hbefore
  rw [List.cons_append, List.cons.injEq] at hparts
  have hle := (prefix_joinWith q before).length_le
  rw [hx, ← hparts.1, hp, List.length_append, List.length_cons] at hle
  omega

/-- The parts after the first are what a text is cut into. -/
theorem tail (h : IsCut (p :: q :: parts) t) :
  IsCut (q :: parts) (Text.joinWith [','] (q :: parts))
  where
  ne_nil := List.cons_ne_nil q parts
  joined := rfl
  separates_iff := by
    intro x y hxy
    have ht : t = (p ++ ',' :: x) ++ ',' :: y := by
      rw [← h.joined, joinWith_cons_cons, hxy, List.append_assoc, List.cons_append]
    have hopen : openBrackets (p ++ ',' :: x) = openBrackets x := by
      rw [openBrackets, List.foldl_append, List.foldl_cons, ← openBrackets, h.closed]
      rfl
    rw [← hopen, h.separates_iff _ _ ht]
    constructor
    · rintro ⟨before, after, hbefore, hafter, hparts, hx, hy⟩
      obtain ⟨p', before, rfl⟩ := List.exists_cons_of_ne_nil hbefore
      rw [List.cons_append, List.cons.injEq] at hparts
      obtain ⟨rfl, hparts⟩ := hparts
      cases before with
      | nil => exact absurd hx (by simp [Text.joinWith])
      | cons q' before =>
        rw [joinWith_cons_cons, List.append_cancel_left_eq, List.cons.injEq] at hx
        use q' :: before, after, List.cons_ne_nil q' before, hafter, hparts, hx.2, hy
    · rintro ⟨before, after, hbefore, hafter, hparts, hx, hy⟩
      obtain ⟨q', before, rfl⟩ := List.exists_cons_of_ne_nil hbefore
      use p :: q' :: before, after, List.cons_ne_nil p _, hafter, congrArg (p :: ·) hparts
      rw [joinWith_cons_cons, hx]
      exact ⟨rfl, hy⟩

end IsCut

/-- A text in which a bracket is open before each comma is one part. -/
theorem splitArguments_of_not_closed {t : Text}
    (h : ∀ x y, t = x ++ ',' :: y → openBrackets x ≠ 0) :
  splitArguments 0 t = [t]
  := by
  have hcut := isCut_splitArguments t
  obtain ⟨p, parts, hparts⟩ := List.exists_cons_of_ne_nil hcut.ne_nil
  rw [hparts] at hcut ⊢
  cases parts with
  | nil => exact congrArg (fun t => [t]) hcut.joined
  | cons q parts =>
    exact absurd hcut.closed (h p _ (by rw [← hcut.joined, joinWith_cons_cons]))

theorem IsCut.eq {parts : List Text} {t : Text} (h : IsCut parts t) :
  parts = splitArguments 0 t
  := by
  induction parts generalizing t with
  | nil => exact absurd rfl h.ne_nil
  | cons p parts ih =>
    have hp : splitArguments 0 p = [p] := by
      apply splitArguments_of_not_closed
      intro x y
      apply h.not_closed
    cases parts with
    | nil =>
      rw [← h.joined]
      exact hp.symm
    | cons q parts =>
      rw [← h.joined, joinWith_cons_cons, splitArguments_append_of_closed h.closed, hp,
        ← ih h.tail]
      rfl

/-! ### Bounds -/

/-- What an argument comes to: what follows `? extends`, without the blank characters around it, or
the argument itself if it does not begin so. -/
inductive IsBoundOf (argument : Text) : Text → Prop where
  | extends {w bound : Text} (hw : Text.AllBlank w)
      (h : argument = "?" ++ w ++ "extends " ++ bound) : IsBoundOf argument (Text.trim bound)
  | other (h : ∀ w bound : Text, Text.AllBlank w → argument ≠ "?" ++ w ++ "extends " ++ bound) :
    IsBoundOf argument argument

theorem after?_extends_iff {argument bound : Text} :
  ((Text.after? "?" argument).bind fun rest => Text.after? "extends " (Text.trimStart rest))
      = some bound
    ↔ ∃ w : Text, Text.AllBlank w ∧ argument = "?" ++ w ++ "extends " ++ bound
  := by
  simp only [Option.bind_eq_some_iff, Text.after?_eq_some_iff]
  constructor
  · rintro ⟨rest, rfl, hrest⟩
    obtain ⟨w, hw, hblanks⟩ := Text.exists_eq_append_trimStart rest
    use w, hw
    rw [hblanks, hrest, List.append_assoc, List.append_assoc]
  · rintro ⟨w, hw, rfl⟩
    use w ++ ("extends " ++ bound)
    constructor
    · rw [List.append_assoc, List.append_assoc]
    · rw [Text.trimStart_append_of_allBlank hw]
      apply Text.trimStart_cons_of_not_blank
      decide

theorem isBoundOf_iff {argument bound : Text} :
  IsBoundOf argument bound ↔ upperBound argument = bound
  := by
  rw [upperBound]
  split
  · rename_i b hb
    obtain ⟨w, hw, h⟩ := after?_extends_iff.1 hb
    constructor
    · rintro (⟨hw', h'⟩ | hother)
      · rw [after?_extends_iff.2 ⟨_, hw', h'⟩, Option.some.injEq] at hb
        rw [hb]
      · exact absurd h (hother w b hw)
    · rintro rfl
      exact .extends hw h
  · rename_i hnone
    constructor
    · rintro (⟨hw, h⟩ | -)
      · rw [after?_extends_iff.2 ⟨_, hw, h⟩] at hnone
        contradiction
      · rfl
    · rintro rfl
      apply IsBoundOf.other
      intro w b hw h
      rw [after?_extends_iff.2 ⟨w, hw, h⟩] at hnone
      contradiction

/-! ### Forms -/

/-- The shape of a text without blank characters at its ends.  An array ends in a pair of brackets,
with blank characters before it and the element before these.  A type with arguments is a base
without an opening angle bracket, such a bracket, arguments that are cut at their commas and a
closing angle bracket at the end.  Any other text is a plain name. -/
inductive IsShapeOf (t : Text) : TypeShape → Prop where
  | array {element w : Text} (h : t = element ++ w ++ "[]") (hw : Text.AllBlank w)
      (hlast : ∀ c ∈ element.getLast?, Text.isBlank c = false) : IsShapeOf t (.array element)
  | parameterized {base text : Text} {parts arguments : List Text}
      (hbrackets : ¬ ("[]" : Text) <:+ t) (h : t = base ++ '<' :: (text ++ ">")) (hbase : '<' ∉ base)
      (hparts : IsCut parts text)
      (harguments : List.Forall₂ (fun part => IsBoundOf (Text.trim part)) parts arguments) :
      IsShapeOf t (.parameterized (Text.trim base) arguments)
  | plain (hbrackets : ¬ ("[]" : Text) <:+ t)
      (h : ∀ base text : Text, '<' ∉ base → t ≠ base ++ '<' :: (text ++ ">")) :
      IsShapeOf t (.plain t)

theorem trimEnd_eq_self_iff {t : Text} :
  Text.trimEnd t = t ↔ ∀ c ∈ t.getLast?, Text.isBlank c = false
  := by
  have hself : Text.trimEnd t = t ↔ ∀ hne : t ≠ [], ¬ Text.isBlank (t.getLast hne) = true :=
    List.rdropWhile_eq_self_iff
  rw [hself]
  constructor
  · intro h c hc
    obtain ⟨hne, rfl⟩ := List.mem_getLast?_eq_getLast hc
    exact Bool.eq_false_iff.2 (h hne)
  · intro h hne
    rw [h _ (List.getLast_mem_getLast? hne)]
    exact Bool.false_ne_true

theorem forall₂_isBoundOf_iff {parts arguments : List Text} :
  List.Forall₂ (fun part => IsBoundOf (Text.trim part)) parts arguments
    ↔ parts.map (fun part => upperBound (Text.trim part)) = arguments
  := by
  have hbound : (fun part => IsBoundOf (Text.trim part))
      = fun part bound => upperBound (Text.trim part) = bound := by
    funext part bound
    exact propext isBoundOf_iff
  rw [hbound, ← List.forall₂_map_left_iff (R := Eq), List.forall₂_eq_eq_eq]

theorem not_brackets_suffix (s : Text) :
  ¬ ("[]" : Text) <:+ s ++ (">" : Text)
  := by
  rintro ⟨rest, h⟩
  have hlast := congrArg List.getLast? h
  simp at hlast

/-- The shape of a text is the one of its form. -/
theorem isShapeOf_iff {type : Text} {shape : TypeShape} :
  IsShapeOf (Text.trim type) shape ↔ parse type = shape
  := by
  constructor
  · rintro (⟨h, hw, hlast⟩ | ⟨-, h, hbase, hparts, harguments⟩ | ⟨hbrackets, h⟩)
    · rw [parse_eq_array_iff]
      refine ⟨_, h, ?_⟩
      rw [Text.trimEnd_append_of_allBlank hw, trimEnd_eq_self_iff.2 hlast]
    · rw [parse_eq_parameterized h hbase, ← hparts.eq, forall₂_isBoundOf_iff.1 harguments]
    · rw [parse]
      split
      · rename_i s hs
        rw [Text.before?_eq_some_iff.1 hs] at hbrackets
        exact absurd (List.suffix_append _ _) hbrackets
      · split
        · rename_i base text hcut
          obtain ⟨inner, hclose, hopen⟩ := Option.bind_eq_some_iff.1 hcut
          obtain ⟨rfl, hbase⟩ := Text.cutFirst?_eq_some_iff.1 hopen
          apply absurd _ (h base text hbase)
          rw [Text.before?_eq_some_iff.1 hclose, List.append_assoc, List.cons_append]
        · rfl
  · rintro rfl
    cases hshape : parse type with
    | array element =>
      obtain ⟨s, hs, rfl⟩ := parse_eq_array_iff.1 hshape
      obtain ⟨w, hw, hblanks⟩ := Text.exists_eq_trimEnd_append s
      rw [hblanks] at hs
      refine .array hs hw ?_
      rw [← trimEnd_eq_self_iff]
      apply List.rdropWhile_idempotent
    | parameterized base arguments =>
      obtain ⟨a, b, h, ha, rfl, rfl⟩ := exists_of_parse_parameterized hshape
      refine .parameterized ?_ h ha (isCut_splitArguments b) (forall₂_isBoundOf_iff.2 rfl)
      rw [h, ← List.cons_append, ← List.append_assoc]
      apply not_brackets_suffix
    | plain name =>
      have hname : name = Text.trim type := by
        rw [parse] at hshape
        split at hshape
        · contradiction
        · split at hshape
          · contradiction
          · exact (TypeShape.plain.inj hshape).symm
      rw [hname]
      refine .plain ?_ ?_
      · rintro ⟨s, hs⟩
        rw [parse_eq_array_iff.2 ⟨s, hs.symm, rfl⟩] at hshape
        contradiction
      · intro base text hbase h
        rw [parse_eq_parameterized h hbase] at hshape
        contradiction

/-! ### Parts of a text -/

/-- The element of an array, or the arguments of a type with arguments. -/
def parts : TypeShape → List Text
  | .array element => [element]
  | .parameterized _ arguments => arguments
  | .plain _ => []

theorem isInfix_trim (t : Text) :
  Text.trim t <:+: t
  := by
  obtain ⟨w, w', -, -, ht⟩ := Text.exists_eq_append_trim_append t
  exact ⟨w, w', ht.symm⟩

theorem isInfix_upperBound (argument : Text) :
  upperBound argument <:+: argument
  := by
  generalize hbound : upperBound argument = bound
  obtain ⟨-, h⟩ | - := isBoundOf_iff.2 hbound
  · rw [h]
    exact (isInfix_trim _).trans (List.suffix_append _ _).isInfix
  · exact List.infix_rfl

theorem isInfix_of_mem_splitArguments {t part : Text} (h : part ∈ splitArguments 0 t) :
  part <:+: t
  := by
  have hcut := isCut_splitArguments t
  generalize splitArguments 0 t = parts at h hcut
  rw [← hcut.joined]
  clear hcut
  induction parts with
  | nil => contradiction
  | cons p parts ih =>
    rcases List.mem_cons.1 h with rfl | h
    · exact (prefix_joinWith part parts).isInfix
    · cases parts with
      | nil => contradiction
      | cons q parts =>
        rw [joinWith_cons_cons, ← List.singleton_append, ← List.append_assoc]
        exact (ih h).trans (List.suffix_append _ _).isInfix

/-- The parts of a text are contiguous in it, and shorter. -/
theorem isInfix_of_mem_parts {type part : Text} (h : part ∈ (parse type).parts) :
  part <:+: Text.trim type ∧ part.length < (Text.trim type).length
  := by
  rw [← parse_trim] at h
  cases hshape : parse (Text.trim type) with
  | array element =>
    rw [hshape, parts, List.mem_singleton] at h
    subst h
    obtain ⟨s, hs, rfl⟩ := parse_eq_array_iff.1 hshape
    rw [Text.trim_trim] at hs
    constructor
    · rw [hs]
      have hfront : Text.trimEnd s <+: s := List.rdropWhile_prefix Text.isBlank s
      exact (List.IsPrefix.trans hfront (List.prefix_append _ _)).isInfix
    · apply length_lt_of_parse_array hshape
  | parameterized base arguments =>
    rw [hshape, parts] at h
    constructor
    · obtain ⟨a, b, htrim, -, -, rfl⟩ := exists_of_parse_parameterized hshape
      rw [Text.trim_trim] at htrim
      obtain ⟨p, hp, rfl⟩ := List.mem_map.1 h
      have hb : b <:+: Text.trim type := by
        use a ++ ['<'], ">"
        rw [htrim]
        simp
      exact (((isInfix_upperBound _).trans (isInfix_trim p)).trans
        (isInfix_of_mem_splitArguments hp)).trans hb
    · apply length_lt_of_parse_parameterized hshape h
  | plain name =>
    rw [hshape] at h
    contradiction

/-- No text has parts, parts of parts and so on without end. -/
theorem wellFounded_parts :
  WellFounded fun part type : Text => part ∈ (parse type).parts
  := by
  apply Subrelation.wf _ (measure (List.length : Text → Nat)).wf
  intro part type h
  exact (isInfix_of_mem_parts h).2.trans_le (Text.length_trim_le type)

/-- The parts of a type with arguments are its arguments, cut and reduced to their bounds. -/
theorem parts_applied {base : Text} (hbase : '<' ∉ base) (text : Text) :
  (parse (base ++ '<' :: (text ++ ">"))).parts
    = (splitArguments 0 text).map fun part => upperBound (Text.trim part)
  := by
  have hend : Text.trimEnd (text ++ ">") = text ++ ">" :=
    Text.trimEnd_concat_of_not_blank (by decide) text
  have htrim : Text.trim (base ++ '<' :: (text ++ ">"))
      = Text.trimStart base ++ '<' :: (text ++ ">") := by
    rw [Text.trim_append_cons (by decide), hend]
  have hstart : '<' ∉ Text.trimStart base := by
    intro h
    apply hbase ((List.dropWhile_suffix _).subset h)
  rw [parse_eq_parameterized htrim hstart, parts]

end TypeShape

/-! ### The recursion of resolution -/

namespace Resolver

open TypeShape

/-- The command by a shape, where `command` tells the command of an element or argument. -/
def shapeCommandBy? (command : Text → Command) : TypeShape → Option Command
  | .array element => arrayCommand? element (command element).kind
  | .parameterized base [element] => containerCommand? base element (command element).kind
  | _ => none

/-- The command of a type by the rules, where `command` tells the command of an element or
argument. -/
def byRules (r : Resolver) (command : Text → Command) (type : Text) : Command :=
  match scalarKind? (Text.trim type) with
  | some kind => .plain kind
  | none =>
    ((frameworkCommand? (Text.trim type)).or (shapeCommandBy? command (.parse type))).getD
      (r.byAncestry (Text.trim type))

variable (r : Resolver)

theorem resolve_eq_byRules (type : Text) :
  r.resolve type = r.byRules r.resolve type
  := r.resolve_eq type

/-- The rules ask for the commands of the parts of a type only. -/
theorem byRules_congr {f f' : Text → Command} {type : Text}
    (h : ∀ part ∈ (parse type).parts, f part = f' part) :
  r.byRules f type = r.byRules f' type
  := by
  have hshape : shapeCommandBy? f (parse type) = shapeCommandBy? f' (parse type) := by
    generalize parse type = shape at h
    match shape with
    | .array element =>
      rw [shapeCommandBy?, shapeCommandBy?, h element List.mem_cons_self]
    | .parameterized base [element] =>
      rw [shapeCommandBy?, shapeCommandBy?, h element List.mem_cons_self]
    | .parameterized base [] => rfl
    | .parameterized base (_ :: _ :: _) => rfl
    | .plain name => rfl
  rw [byRules, hshape, byRules]

/-- The rules determine the command of every type. -/
theorem byRules_iff {f : Text → Command} :
  (∀ type, f type = r.byRules f type) ↔ f = r.resolve
  := by
  constructor
  · intro h
    funext type
    induction type using wellFounded_parts.induction with
    | h type ih => rw [h type, r.byRules_congr ih, ← resolve_eq_byRules]
  · rintro rfl type
    apply resolve_eq_byRules

end Resolver

namespace TypeShape

/-- A text is read in the form that it has, and in no other.  Its elements and arguments are
contiguous and shorter parts of it; so taking parts of parts ends, and there is one way to give
every text its command by the rules of resolution.  Arguments before and after a comma are read
apart from each other if the brackets before the comma are closed. -/
theorem shape_of_every_text (type : Text) :
  (∀ shape, IsShapeOf (Text.trim type) shape ↔ parse type = shape)
    ∧ (∀ part ∈ (parse type).parts,
      part <:+: Text.trim type ∧ part.length < (Text.trim type).length)
    ∧ (WellFounded fun part type : Text => part ∈ (parse type).parts)
    ∧ (∀ (r : Resolver) (f : Text → Command),
      (∀ t, f t = r.byRules f t) ↔ f = r.resolve)
    ∧ ∀ base x y : Text, '<' ∉ base → openBrackets x = 0 →
      (parse (base ++ '<' :: (x ++ ',' :: y ++ ">"))).parts
        = (parse (base ++ '<' :: (x ++ ">"))).parts ++ (parse (base ++ '<' :: (y ++ ">"))).parts
  := by
  refine ⟨fun _ => isShapeOf_iff, fun _ => isInfix_of_mem_parts, wellFounded_parts,
    fun r _ => r.byRules_iff, ?_⟩
  intro base x y hbase hx
  rw [parts_applied hbase, parts_applied hbase, parts_applied hbase,
    splitArguments_append_of_closed hx, List.map_append]

/-- A text with a bracket too many in each of two arguments, and a bound in the third. -/
def lopsided : Text := " Map<a>, b<c,d>>, ? extends e > "

/-- The third argument is read as its bound, and apart from the others. -/
theorem lopsided_shape :
  IsShapeOf "Map<a>, b<c,d>>, ? extends e >" (.parameterized "Map" ["a>", "b<c,d>>", "e"])
    ∧ ("b<c,d>>" : Text) <:+: Text.trim lopsided
    ∧ '<' ∉ (" Map" : Text) ∧ openBrackets "a>, b<c,d>>" = 0
    ∧ (parse " Map<a>, b<c,d>>, ? extends e >").parts
      = (parse " Map<a>, b<c,d>>>").parts ++ (parse " Map< ? extends e >").parts
  := by
  have hshape : parse lopsided = .parameterized "Map" ["a>", "b<c,d>>", "e"] := by
    decide
  have hbase : '<' ∉ (" Map" : Text) := by
    decide
  have hclosed : openBrackets "a>, b<c,d>>" = 0 := by
    decide
  obtain ⟨hform, hparts, -, -, happend⟩ := shape_of_every_text lopsided
  refine ⟨(hform _).2 hshape, (hparts "b<c,d>>" ?_).1, hbase, hclosed, ?_⟩
  · rw [hshape]
    decide
  · exact happend " Map" "a>, b<c,d>>" " ? extends e " hbase hclosed

end TypeShape

end InstanceState
