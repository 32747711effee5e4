import InstanceState.Proofs.Resolution.Arrays
import InstanceState.Proofs.Resolution.Catalog
import InstanceState.Proofs.Resolution.Terms

/-!
# Commands of type terms

The rules of resolution on terms, which look at the constructors of a term and look its names up in
the catalog.  If no name has a character of arrays or wildcards and the two containers are not
parcelable, resolution of the text of a term, with blank characters wherever they may stand, gives
the command that the rules give the term.
-/

namespace InstanceState

open Resolver TypeShape

/-! ### The rules on terms -/

section

variable (r : Resolver)

/-- The name of an element without its type arguments. -/
def ElementTerm.front : ElementTerm → Text
  | .name n => n.text
  | .applied base _ _ => base.text

/-- The command of an element by the ancestry of its name. -/
def ElementTerm.objectCommand (e : ElementTerm) : Command :=
  Catalog.object (r.graph.isAssignable e.front r.parcelableBase) e.render

/-- The kind of the arrays of an element that have a kind of their own. -/
def ElementTerm.arrayKind? : ElementTerm → Option CommandKind
  | .name n => Catalog.kind? Catalog.arrays n.text
  | .applied _ _ _ => none

mutual

/-- The command of a type that is not an array. -/
def ElementTerm.command : ElementTerm → Command
  | .name n => (Catalog.named? n.text).getD ((ElementTerm.name n).objectCommand r)
  | .applied base gap arguments =>
    match arguments.onlyBound? with
    | some (bound, kind) =>
      (Catalog.container? base.text bound kind).getD
        ((ElementTerm.applied base gap arguments).objectCommand r)
    | none => (ElementTerm.applied base gap arguments).objectCommand r

/-- The command of a type. -/
def TypeTerm.command : TypeTerm → Command
  | .element e => e.command
  | .array e gap =>
    match e.arrayKind? with
    | some kind => ⟨kind, none⟩
    | none =>
      if Catalog.parcelables.contains e.command.kind then ⟨.parcelableArray, some e.render⟩
      else Catalog.object false (TypeTerm.array e gap).render

/-- The upper bound of a type argument and the kind of its command, if the argument has a bound. -/
def ArgumentTerm.bound? : ArgumentTerm → Option (Text × CommandKind)
  | .type t => some (t.render, t.command.kind)
  | .extending t => some (t.render, t.command.kind)
  | .any => none
  | .extendedBy _ => none

/-- The upper bound of the only type argument and the kind of its command. -/
def ArgumentTerms.onlyBound? : ArgumentTerms → Option (Text × CommandKind)
  | .single _ a _ => a.bound?
  | .cons _ _ _ _ => none

end

end

/-- No name has a character of arrays or wildcards, and the two containers are not parcelable. -/
structure Resolver.IsConventional (r : Resolver) : Prop where
  bracket_names : r.graph.NamesAvoid '['
  bracket_base : '[' ∉ erasure r.parcelableBase
  mark_names : r.graph.NamesAvoid '?'
  mark_base : '?' ∉ erasure r.parcelableBase
  list : r.graph.isAssignable Catalog.listName r.parcelableBase = false
  sparse : r.graph.isAssignable Catalog.sparseName r.parcelableBase = false

variable {r : Resolver}

/-! ### Wildcards -/

theorem mark_mem_erasure {type s : Text} (h : Text.trim type = '?' :: s) :
  '?' ∈ erasure type
  := by
  rw [erasure, h, Text.cutFirst?, if_neg (by decide)]
  cases Text.cutFirst? '<' s with
  | none => apply List.mem_cons_self
  | some cut =>
    rw [Option.map_some, ← List.nil_append ('?' :: cut.1)]
    dsimp only
    rw [Text.trimEnd_append_cons (by decide)]
    apply List.mem_cons_self

theorem trim_element_of_mark {type element s : Text} (h : parse type = .array element)
    (hs : Text.trim type = '?' :: s) :
  ∃ s', Text.trim element = '?' :: s'
  := by
  obtain ⟨front, hfront, rfl⟩ := parse_eq_array_iff.1 h
  rw [hs] at hfront
  rw [Text.trim_trimEnd]
  cases front with
  | nil => cases hfront
  | cons c front =>
    cases hfront
    use Text.trimEnd front
    apply Text.trim_append_cons (s := []) (by decide)

theorem arrayElementKind?_eq_none {element : Text} {c : Char} (hc : c ∈ element)
    (h : isTableChar c = false) :
  arrayElementKind? element = none
  := by
  rw [arrayElementKind?, scalarKind?_eq_none hc h]
  rfl

theorem containerCommand?_of_ne {base : Text} (hlist : base ≠ arrayListName)
    (hsparse : base ≠ sparseArrayName) (element : Text) (kind : CommandKind) :
  containerCommand? base element kind = none
  := by
  rw [containerCommand?, if_neg hlist, if_neg fun h => hsparse h.1]

/-- The shape of a text that begins with a question mark gives no command, if its elements get the
fallback. -/
theorem shapeCommand?_of_mark {type s : Text} (h : Text.trim type = '?' :: s)
    (helement : ∀ element, parse type = .array element →
      (r.resolve element).kind.isParcelable = false) :
  r.shapeCommand? (parse type) = none
  := by
  cases hshape : parse type with
  | array element =>
    obtain ⟨s', hs'⟩ := trim_element_of_mark hshape h
    have hmark : '?' ∈ element := by
      apply Text.mem_of_mem_trim
      rw [hs']
      apply List.mem_cons_self
    rw [shapeCommand?, arrayCommand?, arrayElementKind?_eq_none hmark (by decide),
      helement element hshape]
    rfl
  | parameterized base arguments =>
    have hmark := mark_mem_erasure h
    rw [← base_eq_erasure hshape] at hmark
    have hlist : base ≠ arrayListName := by
      rintro rfl
      contradiction
    have hsparse : base ≠ sparseArrayName := by
      rintro rfl
      contradiction
    rw [shapeCommand?.eq_def]
    split
    · contradiction
    · rename_i heq
      cases heq
      apply containerCommand?_of_ne hlist hsparse
    · rfl
  | plain name => rfl

/-- A text that begins with a question mark gets the fallback. -/
theorem resolve_of_mark (hr : r.IsConventional) {type s : Text} (h : Text.trim type = '?' :: s) :
  r.resolve type = .fallback (Text.trim type)
  := by
  -- The elements of an array begin with the question mark of the array and are shorter.
  induction hn : type.length using Nat.strong_induction_on generalizing type s with
  | h n ih =>
    have helement : ∀ element, parse type = .array element →
        (r.resolve element).kind.isParcelable = false := by
      intro element hshape
      obtain ⟨s', hs'⟩ := trim_element_of_mark hshape h
      have hlt := length_lt_of_parse_array hshape
      rw [hn] at hlt
      rw [ih _ hlt hs' rfl]
      rfl
    have hmark : '?' ∈ Text.trim type := by
      rw [h]
      apply List.mem_cons_self
    have hancestry : r.graph.isAssignable (Text.trim type) r.parcelableBase = false := by
      apply TypeGraph.isAssignable_of_namesAvoid hr.mark_names _ hr.mark_base
      rw [erasure_trim]
      apply mark_mem_erasure h
    rw [resolve_of_mem r hmark (by decide), shapeCommand?_of_mark h helement, Option.getD_none,
      byAncestry, hancestry]
    rfl

/-! ### Erasures of terms -/

/-- A name with type arguments has the erasure of the name. -/
theorem erasure_applied (base : PlainName) (gap : Blanks) (as : ArgumentTerms) :
  erasure (ElementTerm.applied base gap as).render = erasure base.text
  := by
  rw [ElementTerm.render, erasure_append_openAngle (base.openAngle_not_mem gap), base.trim_append,
    erasure_of_not_mem (base.not_mem (by decide)), base.trim_text]

theorem byAncestry_render (e : ElementTerm) :
  r.byAncestry e.render = e.objectCommand r
  := by
  have herasure : erasure e.render = erasure e.front := by
    cases e with
    | name n => rfl
    | applied base gap as => apply erasure_applied
  rw [← Catalog.object_eq, ElementTerm.objectCommand, TypeGraph.isAssignable_congr herasure]

theorem openAngle_mem_applied (base : PlainName) (gap : Blanks) (as : ArgumentTerms) :
  '<' ∈ (ElementTerm.applied base gap as).render
  := by
  rw [ElementTerm.render]
  simp

/-! ### Names -/

theorem resolve_name (n : PlainName) :
  r.resolve n.text = (ElementTerm.name n).command r
  := by
  have hshape : r.shapeCommand? (parse n.text) = none := by
    rw [← ElementTerm.render, parse_name]
    rfl
  rw [resolve_eq, n.trim_text, hshape, Option.or_none, ← ElementTerm.render, byAncestry_render,
    ElementTerm.command, Catalog.named?_eq, ElementTerm.render]
  cases scalarKind? n.text with
  | some kind => rfl
  | none => rfl

/-! ### Names with arguments -/

theorem ne_of_isAssignable (hr : r.IsConventional) {name : Text}
    (h : r.graph.isAssignable name r.parcelableBase = true) :
  name ≠ Catalog.listName ∧ name ≠ Catalog.sparseName
  := by
  constructor
  · rintro rfl
    rw [hr.list] at h
    contradiction
  · rintro rfl
    rw [hr.sparse] at h
    contradiction

/-- An applied name that is assignable to the parcelable base is parcelable. -/
theorem isParcelable_command_applied (hr : r.IsConventional) (base : PlainName) (gap : Blanks)
    (as : ArgumentTerms) (h : r.graph.isAssignable base.text r.parcelableBase = true) :
  ((ElementTerm.applied base gap as).command r).kind.isParcelable = true
  := by
  obtain ⟨hlist, hsparse⟩ := ne_of_isAssignable hr h
  have hobject : (ElementTerm.applied base gap as).objectCommand r
      = ⟨.parcelable, some (ElementTerm.applied base gap as).render⟩ := by
    rw [ElementTerm.objectCommand, ElementTerm.front, h]
    rfl
  rw [ElementTerm.command]
  cases as.onlyBound? r with
  | none =>
    dsimp only
    rw [hobject]
    rfl
  | some bound =>
    dsimp only
    rw [Catalog.container?_eq, containerCommand?_of_ne hlist hsparse, hobject]
    rfl

/-- An argument without an upper bound gives no command. -/
theorem containerCommand?_serializable (base element : Text) :
  containerCommand? base element .serializable = none
  := by
  rw [containerCommand?]
  split_ifs with hlist hsparse
  · rfl
  · cases hsparse.2
  · rfl

theorem resolve_applied (base : PlainName) (gap : Blanks) (as : ArgumentTerms) :
  r.resolve (ElementTerm.applied base gap as).render
    = (r.shapeCommand? (.parameterized base.text (as.toList.map ArgumentTerm.boundText))).getD
      ((ElementTerm.applied base gap as).objectCommand r)
  := by
  have hopen : '<' ∈ Text.trim (ElementTerm.applied base gap as).render := by
    rw [ElementTerm.trim_render]
    apply openAngle_mem_applied
  rw [resolve_of_mem r hopen (by decide), parse_applied, ElementTerm.trim_render,
    byAncestry_render]

/-! ### Arrays -/

theorem arrayElementKind?_render (e : ElementTerm) :
  (arrayElementKind? e.render).bind CommandKind.arrayOf? = e.arrayKind?
  := by
  cases e with
  | name n =>
    symm
    apply Catalog.kind?_arrays
  | applied base gap as =>
    rw [arrayElementKind?_eq_none (openAngle_mem_applied base gap as) (by decide)]
    rfl

/-- The element of an array that is assignable to the parcelable base is parcelable. -/
theorem isParcelable_of_isAssignable_array (hr : r.IsConventional) (e : ElementTerm) (gap : Blanks)
    (h : r.graph.isAssignable (TypeTerm.array e gap).render r.parcelableBase = true) :
  (e.command r).kind.isParcelable = true
  := by
  have hshape := parse_array e gap
  have hmem := openAngle_mem_of_isAssignable hr.bracket_names hr.bracket_base hshape h
  cases e with
  | name n =>
    rw [openAngle_mem_array_iff hshape] at hmem
    apply absurd hmem (n.not_mem (by decide))
  | applied base gap' as =>
    have helement := isAssignable_of_array hr.bracket_names hr.bracket_base hshape h
    rw [TypeGraph.isAssignable_congr (erasure_applied base gap' as)] at helement
    apply isParcelable_command_applied hr base gap' as helement

theorem resolve_array (hr : r.IsConventional) (e : ElementTerm) (gap : Blanks)
    (he : r.resolve e.render = e.command r) :
  r.resolve (TypeTerm.array e gap).render = (TypeTerm.array e gap).command r
  := by
  rw [resolve_of_array (parse_array e gap), he, arrayCommand?, arrayElementKind?_render,
    TypeTerm.command, TypeTerm.trim_render, Catalog.contains_parcelables]
  cases e.arrayKind? with
  | some kind => rfl
  | none =>
    cases hp : (e.command r).kind.isParcelable with
    | true => rfl
    | false =>
      have hancestry : r.graph.isAssignable (TypeTerm.array e gap).render r.parcelableBase
          = false := by
        rw [← Bool.not_eq_true]
        intro h
        rw [isParcelable_of_isAssignable_array hr e gap h] at hp
        contradiction
      dsimp only
      rw [if_neg Bool.false_ne_true, Option.getD_none, byAncestry, hancestry]
      rfl

/-! ### Terms -/

mutual

theorem ElementTerm.resolve_render (hr : r.IsConventional) :
    ∀ e : ElementTerm, r.resolve e.render = e.command r
  | .name n => resolve_name n
  | .applied base gap as => by
      rw [resolve_applied, as.shapeCommand?_bounds hr, ElementTerm.command]
      cases as.onlyBound? r with
      | none => rfl
      | some bound => rfl

/-- Resolution of the text of a term gives the command of the term. -/
theorem TypeTerm.resolve_render (hr : r.IsConventional) :
    ∀ t : TypeTerm, r.resolve t.render = t.command r
  | .element e => e.resolve_render hr
  | .array e gap => resolve_array hr e gap (e.resolve_render hr)

/-- An argument makes a container a parcelable one by its upper bound. -/
theorem ArgumentTerm.containerCommand?_bound (hr : r.IsConventional) (base : Text) :
    ∀ a : ArgumentTerm,
      containerCommand? base a.boundText (r.resolve a.boundText).kind
        = (a.bound? r).bind fun bound => Catalog.container? base bound.1 bound.2
  | .type t => by
      rw [ArgumentTerm.boundText, t.resolve_render hr, ← Catalog.container?_eq]
      rfl
  | .any => by
      have hmark : Text.trim ArgumentTerm.any.boundText = '?' :: [] := by
        decide
      rw [resolve_of_mark hr hmark]
      apply containerCommand?_serializable
  | .extending t => by
      rw [ArgumentTerm.boundText, t.resolve_render hr, ← Catalog.container?_eq]
      rfl
  | .extendedBy t => by
      have hmark : Text.trim (ArgumentTerm.extendedBy t).boundText
          = '?' :: (" super " ++ t.render) := by
        apply ArgumentTerm.trim_render (.extendedBy t)
      rw [resolve_of_mark hr hmark]
      apply containerCommand?_serializable

theorem ArgumentTerms.shapeCommand?_bounds (hr : r.IsConventional) {base : Text} :
    ∀ as : ArgumentTerms,
      r.shapeCommand? (.parameterized base (as.toList.map ArgumentTerm.boundText))
        = (as.onlyBound? r).bind fun bound => Catalog.container? base bound.1 bound.2
  | .single _ a _ => a.containerCommand?_bound hr base
  | .cons _ _ _ rest => by
      cases rest with
      | single => rfl
      | cons => rfl

end

/-- If no name has a character of arrays or wildcards and the two containers are not parcelable,
resolution of the text of a term between blank characters gives the command of the term. -/
theorem resolve_term (hr : r.IsConventional) (before after : Blanks) (t : TypeTerm) :
  r.resolve (before.text ++ t.render ++ after.text) = t.command r
  := by
  rw [← resolve_trim, Text.trim_append_append before.allBlank after.allBlank, t.trim_render]
  apply t.resolve_render hr

/-- Resolution over the framework types. -/
def Resolver.stock : Resolver := ⟨.stock, TypeGraph.parcelableName⟩

/-- A list of points. -/
def pointList : TypeTerm :=
  .element (.applied ⟨Catalog.listName, by decide, by decide⟩ ⟨" ", by decide⟩
    (.single ⟨"\t", by decide⟩
      (.extending (.element (.name ⟨"android.graphics.Point", by decide, by decide⟩)))
      ⟨[], by decide⟩))

/-- A list of points has the points as its parcelable elements, however it is written. -/
theorem resolve_pointList :
  Resolver.stock.IsConventional
    ∧ Resolver.stock.resolve " java.util.ArrayList <\t? extends android.graphics.Point>\n"
      = .typed .parcelableArrayList "android.graphics.Point"
  := by
  have hstock : Resolver.stock.IsConventional := by
    constructor
    · apply stock_namesAvoid (by decide)
    · decide
    · apply stock_namesAvoid (by decide)
    · decide
    · rw [TypeGraph.isAssignable_of_find?_eq_none (by decide)]
      decide
    · rw [TypeGraph.isAssignable_of_find?_eq_none (by decide)]
      decide
  use hstock
  apply resolve_term hstock ⟨" ", by decide⟩ ⟨"\n", by decide⟩ pointList

end InstanceState
