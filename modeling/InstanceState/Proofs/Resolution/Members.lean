import InstanceState.Proofs.Resolution.Commands
import Mathlib.Data.List.Permutation

/-!
# Member types

The names of types whose outer types may have type arguments too.  Without its type arguments such
a type keeps the names of its members and its dimensions, which stand outside of the angle brackets.
Erasure keeps only what stands before the first of the brackets.  So a member of a type with
arguments has the ancestry of that outer type, and is parcelable if the outer type is.
-/

namespace InstanceState

/-! ### Angle brackets -/

/-- A text in which each angle bracket that is opened is closed, and the other way around. -/
inductive AnglesBalanced : Text → Prop where
  | nil : AnglesBalanced []
  | cons (c : Char) {t : Text} (hopen : c ≠ '<') (hclose : c ≠ '>') (ht : AnglesBalanced t) :
      AnglesBalanced (c :: t)
  | enclose {s t : Text} (hs : AnglesBalanced s) (ht : AnglesBalanced t) :
      AnglesBalanced ('<' :: (s ++ '>' :: t))

/-- The part of a text that stands outside of angle brackets, when `depth` brackets are open before
the text. -/
def outsideAngles (depth : Nat) : Text → Text
  | [] => []
  | c :: t =>
    if c = '<' then outsideAngles (depth + 1) t
    else if c = '>' then outsideAngles (depth - 1) t
    else if depth = 0 then c :: outsideAngles depth t
    else outsideAngles depth t

theorem outsideAngles_of_not_mem {s : Text} (hopen : '<' ∉ s) (hclose : '>' ∉ s) (t : Text) :
  outsideAngles 0 (s ++ t) = s ++ outsideAngles 0 t
  := by
  induction s with
  | nil => rfl
  | cons c s ih =>
    rw [List.mem_cons, not_or] at hopen hclose
    rw [List.cons_append, outsideAngles, if_neg (Ne.symm hopen.1), if_neg (Ne.symm hclose.1),
      if_pos rfl, ih hopen.2 hclose.2, List.cons_append]

/-- Nothing of a balanced text between brackets stands outside of them. -/
theorem AnglesBalanced.outsideAngles_append {s : Text} (h : AnglesBalanced s) (depth : Nat)
    (t : Text) :
  outsideAngles (depth + 1) (s ++ t) = outsideAngles (depth + 1) t
  := by
  induction h generalizing depth t with
  | nil => rfl
  | cons c hopen hclose _ ih =>
    rw [List.cons_append, outsideAngles, if_neg hopen, if_neg hclose,
      if_neg (Nat.succ_ne_zero depth)]
    apply ih
  | enclose _ _ ihs iht =>
    rw [List.cons_append, outsideAngles, if_pos rfl, List.append_assoc, ihs, List.cons_append,
      outsideAngles, if_neg (by decide), if_pos rfl]
    apply iht

/-! ### Types and their members -/

/-- A name, with or without type arguments. -/
inductive Segment where
  | plain (name : PlainName)
  | applied (name : PlainName) (arguments : Text) (balanced : AnglesBalanced arguments)

namespace Segment

/-- The name of a segment. -/
def name : Segment → PlainName
  | plain name => name
  | applied name _ _ => name

/-- The text of a segment. -/
def render : Segment → Text
  | plain name => name.text
  | applied name arguments _ => name.text ++ '<' :: (arguments ++ ['>'])

/-- Whether a segment has type arguments. -/
def isApplied : Segment → Bool
  | plain _ => false
  | applied _ _ _ => true

end Segment

/-- A type as segments with dots between them: the outer types in order and then the type itself,
with the number of its dimensions. -/
inductive MemberType where
  | self (s : Segment) (dimensions : Nat)
  | within (outer : Segment) (member : MemberType)

/-- The pairs of brackets of an array type. -/
def dimensionText (n : Nat) : Text := (List.replicate n ['[', ']']).flatten

namespace MemberType

/-- The text of a type. -/
def render : MemberType → Text
  | self s n => s.render ++ dimensionText n
  | within s m => s.render ++ '.' :: m.render

/-- The type without all type arguments. -/
def bare : MemberType → MemberType
  | self s n => self (.plain s.name) n
  | within s m => within (.plain s.name) m.bare

/-- The text of a type up to the first type arguments. -/
def front : MemberType → Text
  | self s n => if s.isApplied then s.name.text else s.name.text ++ dimensionText n
  | within s m => if s.isApplied then s.name.text else s.name.text ++ '.' :: m.front

/-- Nothing but type arguments stands after the first type arguments. -/
def EndsApplied : MemberType → Prop
  | self s n => s.isApplied = true → n = 0
  | within s m => s.isApplied = false ∧ m.EndsApplied

/-- The number of dimensions of a type. -/
def dimensions : MemberType → Nat
  | self _ n => n
  | within _ m => m.dimensions

end MemberType

/-! ### Texts without type arguments -/

theorem Segment.outsideAngles_render (s : Segment) (t : Text) :
  outsideAngles 0 (s.render ++ t) = s.name.text ++ outsideAngles 0 t
  := by
  cases s with
  | plain name =>
    apply outsideAngles_of_not_mem
    · apply name.not_mem
      decide
    · apply name.not_mem
      decide
  | applied name arguments balanced =>
    have hclose : outsideAngles 1 ('>' :: t) = outsideAngles 0 t := by
      rw [outsideAngles, if_neg (by decide), if_pos rfl]
    rw [render, List.append_assoc, outsideAngles_of_not_mem, List.cons_append, outsideAngles,
      if_pos rfl, List.append_assoc, balanced.outsideAngles_append, List.singleton_append, hclose]
    · rfl
    · apply name.not_mem
      decide
    · apply name.not_mem
      decide

theorem not_mem_dimensionText {c : Char} (hopen : c ≠ '[') (hclose : c ≠ ']') (n : Nat) :
  c ∉ dimensionText n
  := by
  intro h
  obtain ⟨pair, hpair, hc⟩ := List.mem_flatten.1 h
  rw [List.eq_of_mem_replicate hpair] at hc
  simp [hopen, hclose] at hc

/-- What stands outside of the angle brackets of a type is the type without its type arguments. -/
theorem MemberType.outsideAngles_render (m : MemberType) :
  outsideAngles 0 m.render = m.bare.render
  := by
  induction m with
  | self s n =>
    have hdimensions : outsideAngles 0 (dimensionText n ++ []) = dimensionText n ++ [] := by
      apply outsideAngles_of_not_mem
      · apply not_mem_dimensionText (by decide) (by decide)
      · apply not_mem_dimensionText (by decide) (by decide)
    rw [List.append_nil] at hdimensions
    rw [render, s.outsideAngles_render, hdimensions, bare, render, Segment.render]
  | within s m ih =>
    rw [render, s.outsideAngles_render, outsideAngles, if_neg (by decide), if_neg (by decide),
      if_pos rfl, ih, bare, render, Segment.render]

/-! ### Erasure -/

namespace MemberType

theorem exists_cons_front (m : MemberType) :
  ∃ c t, m.front = c :: t ∧ isNameChar c = true
  := by
  cases m with
  | self s n =>
    obtain ⟨c, t, h, hc⟩ := s.name.exists_cons
    rw [front, h]
    split
    · use c, t
    · use c, t ++ dimensionText n, rfl
  | within s m =>
    obtain ⟨c, t, h, hc⟩ := s.name.exists_cons
    rw [front, h]
    split
    · use c, t
    · use c, t ++ '.' :: m.front, rfl

theorem dimensionText_zero :
  dimensionText 0 = []
  := rfl

theorem dimensionText_succ (n : Nat) :
  dimensionText (n + 1) = dimensionText n ++ ['['] ++ [']']
  := by
  rw [dimensionText, List.replicate_succ', List.flatten_append, List.append_assoc]
  rfl

theorem exists_concat_dimensions (name : PlainName) (n : Nat) :
  ∃ t c, name.text ++ dimensionText n = t ++ [c] ∧ Text.isBlank c = false
  := by
  cases n with
  | zero =>
    obtain ⟨t, c, h, hc⟩ := name.exists_concat
    use t, c
    constructor
    · rw [h]
      apply List.append_nil
    · apply isBlank_of_isNameChar hc
  | succ n =>
    use name.text ++ (dimensionText n ++ ['[']), ']'
    constructor
    · rw [dimensionText_succ, ← List.append_assoc, ← List.append_assoc]
    · decide

theorem exists_concat_front (m : MemberType) :
  ∃ t c, m.front = t ++ [c] ∧ Text.isBlank c = false
  := by
  induction m with
  | self s n =>
    rw [front]
    split
    · obtain ⟨t, c, h, hc⟩ := s.name.exists_concat
      use t, c, h, isBlank_of_isNameChar hc
    · apply exists_concat_dimensions
  | within s m ih =>
    rw [front]
    split
    · obtain ⟨t, c, h, hc⟩ := s.name.exists_concat
      use t, c, h, isBlank_of_isNameChar hc
    · obtain ⟨t, c, h, hc⟩ := ih
      use s.name.text ++ '.' :: t, c
      rw [h, List.append_assoc]
      use rfl, hc

theorem trim_front (m : MemberType) :
  Text.trim m.front = m.front
  := by
  obtain ⟨c, t, h, hc⟩ := m.exists_cons_front
  obtain ⟨t', d, h', hd⟩ := m.exists_concat_front
  apply Text.trim_eq_self h h' (isBlank_of_isNameChar hc) hd

theorem openAngle_not_mem_front (m : MemberType) :
  '<' ∉ m.front
  := by
  induction m with
  | self s n =>
    rw [front]
    split
    · apply s.name.not_mem
      decide
    · rw [List.mem_append, not_or]
      constructor
      · apply s.name.not_mem
        decide
      · apply not_mem_dimensionText (by decide) (by decide)
  | within s m ih =>
    rw [front]
    split
    · apply s.name.not_mem
      decide
    · rw [List.mem_append, List.mem_cons, not_or, not_or]
      refine ⟨?_, by decide, ih⟩
      apply s.name.not_mem
      decide

/-- A type is what stands before its first type arguments, with or without an angle bracket after
it. -/
theorem render_cases (m : MemberType) :
  m.render = m.front ∨ ∃ t, m.render = m.front ++ '<' :: t
  := by
  induction m with
  | self s n =>
    cases s with
    | plain name =>
      left
      rfl
    | applied name arguments balanced =>
      right
      use arguments ++ ['>'] ++ dimensionText n
      rw [render, Segment.render, List.append_assoc]
      rfl
  | within s m ih =>
    cases s with
    | plain name =>
      rcases ih with ih | ⟨t, ih⟩
      · left
        rw [render, ih]
        rfl
      · right
        use t
        rw [render, ih]
        simp [front, Segment.render, Segment.isApplied, Segment.name]
    | applied name arguments balanced =>
      right
      use arguments ++ ['>'] ++ '.' :: m.render
      rw [render, Segment.render, List.append_assoc]
      rfl

/-- The erasure of a type is its text up to the first type arguments. -/
theorem erasure_render (m : MemberType) :
  erasure m.render = m.front
  := by
  rcases m.render_cases with h | ⟨t, h⟩
  · rw [h, erasure_of_not_mem m.openAngle_not_mem_front, m.trim_front]
  · rw [h, erasure_append_openAngle m.openAngle_not_mem_front, m.trim_front]

theorem erasure_front (m : MemberType) :
  erasure m.front = m.front
  := by
  rw [← m.erasure_render, erasure_erasure]

theorem front_bare (m : MemberType) :
  m.bare.front = m.bare.render
  := by
  induction m with
  | self s n => rfl
  | within s m ih =>
    rw [bare, render, ← ih]
    rfl

theorem erasure_bare (m : MemberType) :
  erasure m.bare.render = m.bare.render
  := by
  rw [erasure_render, front_bare]

/-- The text up to the first type arguments is the text without type arguments exactly if nothing
else stands after the first. -/
theorem front_eq_bare_iff (m : MemberType) :
  m.front = m.bare.render ↔ m.EndsApplied
  := by
  induction m with
  | self s n =>
    rw [front, bare, render, Segment.render, EndsApplied]
    cases s.isApplied with
    | false => simp
    | true =>
      rw [if_pos rfl, List.self_eq_append_right, dimensionText]
      cases n with
      | zero => simp
      | succ n => simp [List.replicate_succ]
  | within s m ih =>
    rw [front, bare, render, Segment.render, EndsApplied]
    cases s.isApplied with
    | false => simp [ih]
    | true => simp

/-! ### Resolution -/

theorem exists_cons_render (m : MemberType) :
  ∃ c t, m.render = c :: t ∧ isNameChar c = true
  := by
  obtain ⟨c, t, h, hc⟩ := m.exists_cons_front
  rcases m.render_cases with hrender | ⟨u, hrender⟩
  · rw [hrender]
    use c, t
  · rw [hrender, h]
    use c, t ++ '<' :: u, rfl

theorem exists_concat_render {m : MemberType} (h : m.dimensions = 0) :
  ∃ t c, m.render = t ++ [c] ∧ Text.isBlank c = false ∧ c ≠ ']'
  := by
  induction m with
  | self s n =>
    rw [dimensions] at h
    rw [render, h]
    cases s with
    | plain name =>
      obtain ⟨t, c, hname, hc⟩ := name.exists_concat
      use t, c
      refine ⟨?_, isBlank_of_isNameChar hc, ?_⟩
      · rw [Segment.render, hname, dimensionText_zero, List.append_nil]
      · rintro rfl
        contradiction
    | applied name arguments balanced =>
      use name.text ++ '<' :: arguments, '>'
      refine ⟨?_, by decide, by decide⟩
      rw [Segment.render, dimensionText_zero, List.append_nil, List.append_assoc, List.cons_append]
  | within s m ih =>
    obtain ⟨t, c, hm, hc⟩ := ih h
    refine ⟨s.render ++ '.' :: t, c, ?_, hc⟩
    rw [render, hm, List.append_assoc, List.cons_append]

theorem trim_render {m : MemberType} (h : m.dimensions = 0) :
  Text.trim m.render = m.render
  := by
  obtain ⟨c, t, hcons, hc⟩ := m.exists_cons_render
  obtain ⟨t', d, hconcat, hd, -⟩ := exists_concat_render h
  apply Text.trim_eq_self hcons hconcat (isBlank_of_isNameChar hc) hd

/-- A type that is not an array and does not start as one of the containers gets no command by its
shape. -/
theorem shapeCommand?_render (r : Resolver) {m : MemberType} (h : m.dimensions = 0)
    (hlist : m.front ≠ Resolver.arrayListName) (hsparse : m.front ≠ Resolver.sparseArrayName) :
  r.shapeCommand? (.parse m.render) = none
  := by
  cases hshape : TypeShape.parse m.render with
  | array element =>
    obtain ⟨t, c, hconcat, -, hc⟩ := exists_concat_render h
    obtain ⟨s, hs, -⟩ := TypeShape.parse_eq_array_iff.1 hshape
    rw [trim_render h, hconcat] at hs
    have hlast := congrArg List.getLast? hs
    simp [hc] at hlast
  | parameterized base arguments =>
    have hbase := TypeShape.base_eq_erasure hshape
    rw [m.erasure_render] at hbase
    subst hbase
    match arguments with
    | [] => rfl
    | [element] => apply containerCommand?_of_ne hlist hsparse
    | _ :: _ :: _ => rfl
  | plain name => rfl

/-- A type with type arguments gets the command that the type up to the first of them has by its
ancestry. -/
theorem resolve_render (r : Resolver) {m : MemberType} (h : m.dimensions = 0)
    (harguments : '<' ∈ m.render) (hlist : m.front ≠ Resolver.arrayListName)
    (hsparse : m.front ≠ Resolver.sparseArrayName) :
  r.resolve m.render = r.ancestryCommand m.front m.render
  := by
  have hopen : '<' ∈ Text.trim m.render := by
    rw [trim_render h]
    apply harguments
  have hancestry : erasure m.render = erasure m.front := by
    rw [m.erasure_render, m.erasure_front]
  rw [Resolver.resolve_of_mem r hopen (by decide), shapeCommand?_render r h hlist hsparse,
    Option.getD_none, trim_render h, Resolver.byAncestry, Resolver.ancestryCommand,
    TypeGraph.isAssignable_congr hancestry]

/-- A type is assignable to whatever its text without type arguments is assignable to, on every
graph, exactly if nothing else stands after its first type arguments. -/
theorem isAssignable_bare_iff (m : MemberType) :
  (∀ (g : TypeGraph) (target : Text),
      g.isAssignable m.render target = g.isAssignable m.bare.render target) ↔ m.EndsApplied
  := by
  rw [← m.front_eq_bare_iff]
  constructor
  · intro h
    have hempty := h .empty m.front
    rw [TypeGraph.isAssignable_of_find?_eq_none (TypeGraph.find?_empty _),
      TypeGraph.isAssignable_of_find?_eq_none (TypeGraph.find?_empty _), m.erasure_render,
      m.erasure_front, m.erasure_bare, decide_eq_true rfl] at hempty
    symm
    apply of_decide_eq_true hempty.symm
  · intro h g target
    apply TypeGraph.isAssignable_congr
    rw [m.erasure_render, m.erasure_bare, h]

/-- The erasure of a type is its text up to the first type arguments.  It is the type without type
arguments, which stands outside of the angle brackets, exactly if nothing else stands after the
first of them; only then are the two assignable to the same types on every graph.  A type with type
arguments that is not an array is parcelable by the ancestry of what stands before them, also if it
is a member of that type, unless this is a container. -/
theorem erasure_keeps_front (m : MemberType) :
  erasure m.render = m.front
    ∧ outsideAngles 0 m.render = m.bare.render
    ∧ (m.front = m.bare.render ↔ m.EndsApplied)
    ∧ (∀ (g : TypeGraph) (target : Text),
      g.isAssignable m.render target = g.isAssignable m.front target)
    ∧ ((∀ (g : TypeGraph) (target : Text),
      g.isAssignable m.render target = g.isAssignable m.bare.render target) ↔ m.EndsApplied)
    ∧ ∀ r : Resolver, m.dimensions = 0 → '<' ∈ m.render → m.front ≠ Resolver.arrayListName →
      m.front ≠ Resolver.sparseArrayName → r.resolve m.render = r.ancestryCommand m.front m.render
  := by
  refine ⟨m.erasure_render, m.outsideAngles_render, m.front_eq_bare_iff, ?_,
    m.isAssignable_bare_iff, ?_⟩
  · intro g target
    apply TypeGraph.isAssignable_congr
    rw [m.erasure_render, m.erasure_front]
  · intro r h harguments hlist hsparse
    apply resolve_render r h harguments hlist hsparse

/-- A member of a type with a type argument, with type arguments of its own. -/
def inner : MemberType :=
  .within
    (.applied ⟨"a.Outer", by decide, by decide⟩ "X" (.cons 'X' (by decide) (by decide) .nil))
    (.self
      (.applied ⟨"Inner", by decide, by decide⟩ "Y,Z<W>"
        (.cons 'Y' (by decide) (by decide) (.cons ',' (by decide) (by decide)
          (.cons 'Z' (by decide) (by decide)
            (.enclose (.cons 'W' (by decide) (by decide) .nil) .nil))))) 0)

/-- The outer type is parcelable, and its member is not. -/
def outers : Resolver :=
  ⟨(TypeGraph.stock.insert (TypeGraph.declare "a.Outer" none [TypeGraph.parcelableName])).insert
    (TypeGraph.declare "a.Outer.Inner" none []), TypeGraph.parcelableName⟩

/-- The member is taken for a parcelable, though without its type arguments it is none. -/
theorem inner_keeps_front :
  erasure "a.Outer<X>.Inner<Y,Z<W>>" = ↑"a.Outer"
    ∧ outsideAngles 0 "a.Outer<X>.Inner<Y,Z<W>>" = ↑"a.Outer.Inner"
    ∧ outers.graph.isAssignable "a.Outer.Inner" outers.parcelableBase = false
    ∧ outers.resolve "a.Outer<X>.Inner<Y,Z<W>>" = .typed .parcelable "a.Outer<X>.Inner<Y,Z<W>>"
  := by
  obtain ⟨herasure, houtside, -, -, -, hresolve⟩ := inner.erasure_keeps_front
  have houter : outers.graph.find? (erasure "a.Outer")
      = some (TypeGraph.declare "a.Outer" none [TypeGraph.parcelableName]) := by
    decide
  have hparcelable : outers.graph.isAssignable "a.Outer" outers.parcelableBase = true := by
    apply TypeGraph.isAssignable_of_mem_parents houter
    decide
  have hcommand := hresolve outers rfl (by decide) (by decide) (by decide)
  refine ⟨herasure, houtside, by cbv, hcommand.trans ?_⟩
  apply if_pos hparcelable

end MemberType

end InstanceState
