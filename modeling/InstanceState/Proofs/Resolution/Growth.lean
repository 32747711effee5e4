import InstanceState.Proofs.Hierarchy.Comparison
import InstanceState.Proofs.Resolution.Commands
import InstanceState.Proofs.Resolution.Retrieval

/-!
# Resolution with more declarations

A type that has another command than the fallback keeps it when declarations of new names are added
to the graph.  The rules on shapes come before the rule on ancestry, so an element that becomes
known could take an array or a container away from its ancestry.  It does not if the containers and
the names with brackets are not assignable to the parcelable base: an array that is assignable then
has type arguments, hence the ancestry of its element, which therefore has had a command before.
-/

namespace InstanceState

namespace Resolver

open TypeGraph TypeShape

/-- No type that the rules on shapes are about is assignable to the parcelable base by its name:
neither of the containers, and no name with brackets. -/
structure SparesShapes (r : Resolver) : Prop where
  list : r.graph.isAssignable arrayListName r.parcelableBase = false
  sparse : r.graph.isAssignable sparseArrayName r.parcelableBase = false
  brackets : ∀ name, '[' ∈ name → '<' ∉ name → r.graph.isAssignable name r.parcelableBase = false

/-- A type has its command of one resolver, unless it is the fallback, in another resolver too. -/
def Keeps (r r' : Resolver) (type : Text) : Prop :=
  r.resolve type ≠ .fallback (Text.trim type) → r'.resolve type = r.resolve type

variable {r r' : Resolver}

/-! ### Types without the fallback -/

theorem shapeCommand?_ne_fallback (shape : TypeShape) (type : Text) :
  r.shapeCommand? shape ≠ some (.fallback type)
  := by
  intro h
  rw [shapeCommand?.eq_def] at h
  split at h
  · rcases arrayCommand?_cases h with ⟨_, _, -, -, hc⟩ | hc
    · cases hc
    · cases hc
  · rcases containerCommand?_cases h with ⟨-, _, -, -, hc⟩ | ⟨-, hc⟩ | ⟨-, hc⟩
    · cases congrArg Command.typeArgument hc
    · cases hc
    · cases hc
  · contradiction

theorem frameworkCommand?_ne_fallback (type type' : Text) :
  frameworkCommand? type ≠ some (.fallback type')
  := by
  have htable : ∀ entry ∈ geometryTable, entry.2 ≠ .serializable := by
    decide
  intro h
  rcases frameworkCommand?_cases h with ⟨-, hc⟩ | ⟨kind, hkind, hc⟩
  · cases hc
  · cases hc
    apply htable _ hkind rfl

/-- A type that is assignable to the parcelable base does not get the fallback. -/
theorem ne_fallback_of_isAssignable {type : Text}
    (h : r.graph.isAssignable type r.parcelableBase = true) :
  r.resolve type ≠ .fallback (Text.trim type)
  := by
  have hancestry : r.byAncestry (Text.trim type) = .typed .parcelable (Text.trim type) := by
    rw [byAncestry, TypeGraph.isAssignable_congr (erasure_trim type), if_pos h]
  rw [resolve_eq, hancestry]
  cases scalarKind? (Text.trim type) with
  | some kind =>
    intro hc
    cases hc
  | none =>
    cases hcommand : (frameworkCommand? (Text.trim type)).or (r.shapeCommand? (.parse type)) with
    | none =>
      intro hc
      cases hc
    | some command =>
      rintro rfl
      rcases Option.or_eq_some_iff.1 hcommand with hc | ⟨-, hc⟩
      · apply frameworkCommand?_ne_fallback _ _ hc
      · apply shapeCommand?_ne_fallback _ _ hc

/-! ### Commands by shape -/

theorem arrayCommand?_of_keeps {element : Text} (hkeeps : r.Keeps r' element) {command : Command}
    (h : arrayCommand? element (r.resolve element).kind = some command) :
  arrayCommand? element (r'.resolve element).kind = some command
  := by
  by_cases hfallback : r.resolve element = .fallback (Text.trim element)
  · -- The arrays of the element have a kind of their own, whatever the command of the element is.
    rw [hfallback] at h
    rw [← h, arrayCommand?, arrayCommand?]
    cases hkind : (arrayElementKind? element).bind CommandKind.arrayOf? with
    | some array => rfl
    | none =>
      rw [arrayCommand?, hkind] at h
      contradiction
  · rw [hkeeps hfallback, h]

theorem containerCommand?_of_keeps {base element : Text} {command : Command}
    (hkeeps : r.Keeps r' element)
    (h : containerCommand? base element (r.resolve element).kind = some command) :
  containerCommand? base element (r'.resolve element).kind = some command
  := by
  rw [hkeeps, h]
  intro hfallback
  rw [hfallback] at h
  cases (containerCommand?_serializable base element).symm.trans h

theorem shapeCommand?_of_keeps {type : Text}
    (hkeeps : ∀ element, element.length < type.length → r.Keeps r' element) {command : Command}
    (h : r.shapeCommand? (parse type) = some command) :
  r'.shapeCommand? (parse type) = some command
  := by
  cases hshape : parse type with
  | array element =>
    rw [hshape, shapeCommand?] at h
    apply arrayCommand?_of_keeps (hkeeps element (length_lt_of_parse_array hshape)) h
  | parameterized name arguments =>
    rw [hshape] at h
    cases arguments with
    | nil => cases h
    | cons element rest =>
      cases rest with
      | nil =>
        have hshort := length_lt_of_parse_parameterized hshape (List.mem_singleton_self element)
        apply containerCommand?_of_keeps (hkeeps element hshort) h
      | cons _ _ => cases h
  | plain name =>
    rw [hshape] at h
    cases h

section

variable {g g' : TypeGraph} {base : Text} (hg : g.IncludedIn g')
  (hspares : SparesShapes ⟨g', base⟩) {type : Text}

include hg in
theorem byAncestry_of_isAssignable (ha : g.isAssignable type base = true) :
  (mk g' base).byAncestry type = (mk g base).byAncestry type
  := by
  rw [byAncestry, byAncestry, if_pos ha, if_pos (hg.isAssignable ha)]

include hg hspares

/-- An element keeps having no command for its arrays, if these are assignable to the base. -/
theorem arrayCommand?_eq_none_of_keeps {element : Text} (hshape : parse type = .array element)
    (ha : g.isAssignable type base = true) (hkeeps : (mk g base).Keeps (mk g' base) element)
    (h : arrayCommand? element ((mk g base).resolve element).kind = none) :
  arrayCommand? element ((mk g' base).resolve element).kind = none
  := by
  have hopen : '<' ∈ type := by
    by_contra hopen
    obtain ⟨s, hs, -⟩ := parse_eq_array_iff.1 hshape
    have hname := hspares.brackets (Text.trim type) (by simp [hs])
      fun hmem => hopen (Text.mem_of_mem_trim hmem)
    rw [TypeGraph.isAssignable_congr (erasure_trim type), hg.isAssignable ha] at hname
    contradiction
  have helement : g.isAssignable element base = true := by
    rw [← ha]
    apply TypeGraph.isAssignable_congr (erasure_of_array hshape hopen).symm
  rw [hkeeps (ne_fallback_of_isAssignable helement), h]

/-- A container that is assignable to the base is none of those that the rules are about. -/
theorem containerCommand?_eq_none_of_isAssignable {name : Text} {arguments : List Text}
    (hshape : parse type = .parameterized name arguments) (ha : g.isAssignable type base = true)
    (element : Text) (kind : CommandKind) :
  containerCommand? name element kind = none
  := by
  have hname : g'.isAssignable name base = true := by
    rw [← hg.isAssignable ha, base_eq_erasure hshape]
    apply TypeGraph.isAssignable_congr (erasure_erasure type)
  apply containerCommand?_of_ne
  · rintro rfl
    rw [hspares.list] at hname
    contradiction
  · rintro rfl
    rw [hspares.sparse] at hname
    contradiction

theorem shapeCommand?_eq_none_of_keeps
    (hkeeps : ∀ element, element.length < type.length → (mk g base).Keeps (mk g' base) element)
    (ha : g.isAssignable type base = true) (h : (mk g base).shapeCommand? (parse type) = none) :
  (mk g' base).shapeCommand? (parse type) = none
  := by
  cases hshape : parse type with
  | array element =>
    rw [hshape] at h
    apply arrayCommand?_eq_none_of_keeps hg hspares hshape ha
      (hkeeps element (length_lt_of_parse_array hshape)) h
  | parameterized name arguments =>
    cases arguments with
    | nil => rfl
    | cons element rest =>
      cases rest with
      | nil => apply containerCommand?_eq_none_of_isAssignable hg hspares hshape ha
      | cons _ _ => rfl
  | plain name => rfl

/-! ### Commands -/

theorem keeps_of_shorter
    (hkeeps : ∀ element, element.length < type.length → (mk g base).Keeps (mk g' base) element) :
  (mk g base).Keeps (mk g' base) type
  := by
  intro hne
  rw [resolve_eq] at hne
  rw [resolve_eq, resolve_eq]
  cases hscalar : scalarKind? (Text.trim type) with
  | some kind => rfl
  | none =>
    rw [hscalar] at hne
    dsimp only at hne ⊢
    cases hframework : frameworkCommand? (Text.trim type) with
    | some command => rfl
    | none =>
      rw [hframework, Option.none_or] at hne
      rw [Option.none_or, Option.none_or]
      cases hshape : (mk g base).shapeCommand? (parse type) with
      | some command =>
        rw [shapeCommand?_of_keeps hkeeps hshape, Option.getD_some, Option.getD_some]
      | none =>
        have ha : g.isAssignable (Text.trim type) base = true := by
          by_contra ha
          rw [hshape, Option.getD_none, byAncestry, if_neg ha] at hne
          contradiction
        have htype := (TypeGraph.isAssignable_congr (erasure_trim type) base).symm.trans ha
        rw [shapeCommand?_eq_none_of_keeps hg hspares hkeeps htype hshape, Option.getD_none,
          Option.getD_none, byAncestry_of_isAssignable hg ha]

/-- Every type keeps its command, if it is not the fallback. -/
theorem keeps (type : Text) :
  (mk g base).Keeps (mk g' base) type
  := by
  induction hn : type.length using Nat.strong_induction_on generalizing type with
  | h n ih =>
    apply keeps_of_shorter hg hspares
    intro element hlt
    rw [hn] at hlt
    apply ih _ hlt element rfl

end

/-- With more declarations in the graph, a type that has another command than the fallback has the
same command, if neither the two containers nor the names with brackets are assignable to the
parcelable base; and an owner of the views stays one. -/
theorem dedicated_commands_kept {g g' : TypeGraph} (hg : g.IncludedIn g') :
  (∀ base, SparesShapes ⟨g', base⟩ → ∀ type,
      resolve ⟨g, base⟩ type ≠ .fallback (Text.trim type) →
      resolve ⟨g', base⟩ type = resolve ⟨g, base⟩ type)
    ∧ ∀ owner viewBases, g.family owner viewBases = .view → g'.family owner viewBases = .view
  := by
  constructor
  · intro base hspares type hne
    apply keeps hg hspares type hne
  · intro owner viewBases hview
    apply hg.family hview

/-- A parcelable type and a view. -/
def yard : TypeGraph := .extend .empty
  [declare "a.Box2" none [parcelableName], declare "a.Panel" (some "android.view.View") []]

/-- The same types and another parcelable one, which extends the first. -/
def depot : TypeGraph := yard.extend [declare "a.Crate" (some "a.Box2") [parcelableName]]

theorem isAssignable_depot_crate :
  depot.isAssignable "a.Crate" parcelableName = true
  := by
  have hfind : depot.find? "a.Crate"
      = some (declare "a.Crate" (some "a.Box2") [parcelableName]) := by
    decide
  apply isAssignable_of_mem_parents hfind
  decide

/-- A list of boxes keeps its command, and a panel its family, when the crates become known, which
were not known to be parcelable before. -/
theorem depot_keeps_commands :
  yard.IncludedIn depot ∧ SparesShapes ⟨depot, parcelableName⟩
    ∧ resolve ⟨depot, parcelableName⟩ "java.util.ArrayList<? extends a.Box2>"
      = .typed .parcelableArrayList "a.Box2"
    ∧ yard.isAssignable "a.Crate" parcelableName = false
    ∧ depot.isAssignable "a.Crate" parcelableName = true
    ∧ depot.family ⟨"a.Panel"⟩ ["android.view.View"] = .view
  := by
  have hincluded : yard.IncludedIn depot := by
    apply includedIn_extend
    decide
  have hbrackets : depot.NamesAvoid '[' := by
    unfold NamesAvoid
    decide
  have hspares : SparesShapes ⟨depot, parcelableName⟩ := by
    constructor
    · rw [isAssignable_of_find?_eq_none (by decide)]
      decide
    · rw [isAssignable_of_find?_eq_none (by decide)]
      decide
    · intro name hbracket hopen
      apply isAssignable_of_namesAvoid hbrackets _ (by decide)
      rw [erasure_of_not_mem hopen, Text.mem_trim_iff (by decide)]
      exact hbracket
  have hparcelable : yard.isAssignable (Text.trim "a.Box2") parcelableName = true := by
    have hfind : yard.find? "a.Box2" = some (declare "a.Box2" none [parcelableName]) := by
      decide
    apply isAssignable_of_mem_parents hfind
    decide
  have hbox : (resolve ⟨yard, parcelableName⟩ "a.Box2").kind = .parcelable := by
    have hplain : parse "a.Box2" = .plain "a.Box2" := by
      decide
    have hnone : shapeCommand? ⟨yard, parcelableName⟩ (parse "a.Box2") = none := by
      rw [hplain]
      rfl
    rw [resolve_of_mem _ (c := '2') (by decide) (by decide), hnone, Option.getD_none, byAncestry,
      if_pos hparcelable]
    rfl
  have hshape : parse "java.util.ArrayList<? extends a.Box2>"
      = .parameterized arrayListName ["a.Box2"] := by
    decide
  have hlist : resolve ⟨yard, parcelableName⟩ "java.util.ArrayList<? extends a.Box2>"
      = .typed .parcelableArrayList "a.Box2" := by
    rw [resolve_of_mem _ (c := '<') (by decide) (by decide), hshape, shapeCommand?,
      containerCommand?, if_pos rfl, hbox]
    rfl
  have hpanel : yard.family ⟨"a.Panel"⟩ ["android.view.View"] = .view := by
    have hfind : yard.find? "a.Panel"
        = some (declare "a.Panel" (some "android.view.View") []) := by
      decide
    rw [TypeGraph.family, List.any_cons, isAssignable_of_mem_parents hfind (by decide)]
    rfl
  obtain ⟨hcommands, hviews⟩ := dedicated_commands_kept hincluded
  refine ⟨hincluded, hspares, ?_, ?_, ?_, hviews _ _ hpanel⟩
  · rw [← hlist]
    apply hcommands _ hspares
    intro hfallback
    cases hlist.symm.trans hfallback
  · rw [isAssignable_of_find?_eq_none (by decide)]
    decide
  · apply isAssignable_depot_crate

end Resolver

end InstanceState
