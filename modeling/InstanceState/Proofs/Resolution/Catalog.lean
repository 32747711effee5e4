import InstanceState.Proofs.Resolution.Rules

/-!
# The catalog of types

The types that have commands of their own, with all the names that they are written with, and the
kinds of the arrays and the lists of a type.  The tables here stand by themselves.  Resolution finds
in its own tables what is in these, and nothing else.
-/

namespace InstanceState

open Resolver

namespace Catalog

/-! ### Tables -/

/-- Names without the package `java.lang` and with it. -/
def languageNames (names : List Text) : List Text :=
  names ++ names.map fun name : Text => "java.lang." ++ name

/-- The types that are stored under their kinds alone, each with its names. -/
def values : List (List Text × CommandKind) :=
  [(languageNames ["boolean", "Boolean"], .boolean),
   (languageNames ["byte", "Byte"], .byte),
   (languageNames ["char", "Character"], .char),
   (languageNames ["double", "Double"], .double),
   (languageNames ["float", "Float"], .float),
   (languageNames ["int", "Integer"], .int),
   (languageNames ["long", "Long"], .long),
   (languageNames ["short", "Short"], .short),
   (languageNames ["String"], .string),
   (languageNames ["CharSequence"], .charSequence),
   (["android.os.Bundle"], .bundle)]

/-- The types with kinds of their own whose retrievals are given the type. -/
def geometric : List (List Text × CommandKind) :=
  [(["android.graphics.Point"], .point),
   (["android.graphics.PointF"], .pointF),
   (["android.graphics.Rect"], .rect),
   (["android.graphics.RectF"], .rectF)]

/-- The types whose arrays have kinds of their own, with the kinds of these arrays.  Boxed types are
not among them. -/
def arrays : List (List Text × CommandKind) :=
  [(["boolean"], .booleanArray),
   (["byte"], .byteArray),
   (["char"], .charArray),
   (["double"], .doubleArray),
   (["float"], .floatArray),
   (["int"], .intArray),
   (["long"], .longArray),
   (["short"], .shortArray),
   (languageNames ["String"], .stringArray),
   (languageNames ["CharSequence"], .charSequenceArray)]

/-- The kinds of types whose lists have kinds of their own, with the kinds of these lists. -/
def lists : List (CommandKind × CommandKind) :=
  [(.int, .integerArrayList),
   (.string, .stringArrayList),
   (.charSequence, .charSequenceArrayList)]

/-- The kinds of parcelable types. -/
def parcelables : List CommandKind := [.bundle, .point, .pointF, .rect, .rectF, .parcelable]

/-- The name of the list type. -/
def listName : Text := "java.util.ArrayList"

/-- The name of the sparse array type. -/
def sparseName : Text := "android.util.SparseArray"

/-! ### Rules -/

/-- The kind that a table gives a name. -/
def kind? (table : List (List Text × CommandKind)) (name : Text) : Option CommandKind :=
  (table.find? fun entry => entry.1.contains name).map Prod.snd

/-- The command of a name that has one of its own. -/
def named? (name : Text) : Option Command :=
  match kind? values name, kind? geometric name with
  | some kind, _ => some ⟨kind, none⟩
  | none, some kind => some ⟨kind, some name⟩
  | none, none => none

/-- The command of a container whose elements have the given text and kind, if it has one of its
own. -/
def container? (base element : Text) (kind : CommandKind) : Option Command :=
  if base = listName then
    match lists.lookup kind with
    | some list => some ⟨list, none⟩
    | none =>
      if parcelables.contains kind then some ⟨.parcelableArrayList, some element⟩ else none
  else if base = sparseName ∧ parcelables.contains kind then
    some ⟨.sparseParcelableArray, some element⟩
  else none

/-- The command of an object that is parcelable or not. -/
def object (parcelable : Bool) (text : Text) : Command :=
  ⟨if parcelable then .parcelable else .serializable, some text⟩

/-! ### Names in the tables -/

/-- The names of a table. -/
def names (table : List (List Text × CommandKind)) : List Text := table.flatMap Prod.fst

theorem mem_names_of_kind? {table : List (List Text × CommandKind)} {name : Text}
    {kind : CommandKind} (h : kind? table name = some kind) :
  name ∈ names table
  := by
  obtain ⟨entry, hentry, -⟩ := Option.map_eq_some_iff.1 h
  apply List.mem_flatMap_of_mem (List.mem_of_find?_eq_some hentry)
  have hname := List.find?_some hentry
  apply List.elem_iff.1 hname

theorem eq_none_of_not_mem {α : Type} {find : Text → Option α} {names : List Text} {name : Text}
    (h : ∀ name a, find name = some a → name ∈ names) (hname : name ∉ names) :
  find name = none
  := by
  rw [Option.eq_none_iff_forall_ne_some]
  intro a ha
  apply hname (h name a ha)

/-- Two lookups that find something at some names only are equal if they agree on these. -/
theorem eq_of_agree {α : Type} {find find' : Text → Option α} (names : List Text)
    (h : ∀ name a, find name = some a → name ∈ names)
    (h' : ∀ name a, find' name = some a → name ∈ names)
    (hagree : ∀ name ∈ names, find name = find' name) (name : Text) :
  find name = find' name
  := by
  by_cases hname : name ∈ names
  · apply hagree name hname
  · rw [eq_none_of_not_mem h hname, eq_none_of_not_mem h' hname]

/-- Whatever resolution takes for a scalar type has a name of the catalog. -/
theorem mem_names_of_scalarKind? {name : Text} {kind : CommandKind}
    (h : scalarKind? name = some kind) :
  name ∈ names values
  := by
  have htable : ∀ entry ∈ scalarTable, ∀ name ∈ [entry.1, "java.lang." ++ entry.1],
      name ∈ names values := by
    decide
  obtain ⟨entry, hentry, -, hname⟩ := exists_mem_scalarTable h
  apply htable entry hentry name hname

/-- The tables of resolution give every name the command that the catalog gives it. -/
theorem named?_eq (name : Text) :
  named? name = ((scalarKind? name).map .plain).or (frameworkCommand? name)
  := by
  have hgeometric : ∀ entry ∈ geometryTable, entry.1 ∈ names values ++ names geometric := by
    decide
  revert name
  apply eq_of_agree (names values ++ names geometric)
  · intro name command hcommand
    rw [named?] at hcommand
    split at hcommand
    · rename_i hkind
      apply List.mem_append_left _ (mem_names_of_kind? hkind)
    · rename_i hkind
      apply List.mem_append_right _ (mem_names_of_kind? hkind)
    · contradiction
  · intro name command hcommand
    rcases Option.or_eq_some_iff.1 hcommand with hscalar | ⟨-, hframework⟩
    · obtain ⟨kind, hkind, -⟩ := Option.map_eq_some_iff.1 hscalar
      apply List.mem_append_left _ (mem_names_of_scalarKind? hkind)
    · rcases frameworkCommand?_cases hframework with ⟨rfl, -⟩ | ⟨kind, hkind, -⟩
      · decide
      · apply hgeometric _ hkind
  · decide

/-- Resolution gives the arrays of every name the kind that the catalog gives them. -/
theorem kind?_arrays (name : Text) :
  kind? arrays name = (arrayElementKind? name).bind CommandKind.arrayOf?
  := by
  have harrays : ∀ name ∈ names arrays, name ∈ names values := by
    decide
  revert name
  apply eq_of_agree (names values)
  · intro name kind hkind
    apply harrays name (mem_names_of_kind? hkind)
  · intro name kind hkind
    obtain ⟨scalar, hscalar, -⟩ := Option.bind_eq_some_iff.1 hkind
    apply mem_names_of_scalarKind? (Option.filter_eq_some_iff.1 hscalar).1
  · decide

/-! ### Kinds in the tables -/

theorem contains_parcelables (kind : CommandKind) :
  parcelables.contains kind = kind.isParcelable
  := by
  cases kind <;> rfl

theorem container?_eq (base element : Text) (kind : CommandKind) :
  container? base element kind = containerCommand? base element kind
  := by
  rw [container?, containerCommand?, contains_parcelables]
  cases kind <;> rfl

theorem object_eq (r : Resolver) (type : Text) :
  object (r.graph.isAssignable type r.parcelableBase) type = r.byAncestry type
  := by
  rw [byAncestry]
  cases r.graph.isAssignable type r.parcelableBase with
  | true => rfl
  | false => rfl

end Catalog

end InstanceState
