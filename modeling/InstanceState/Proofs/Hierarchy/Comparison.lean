import InstanceState.Hierarchy.Family
import InstanceState.Proofs.Hierarchy.Erasure
import InstanceState.Proofs.Hierarchy.Reachability

/-!
# Two graphs

What assignability in one graph tells about another.  A graph that holds the declarations of another
keeps its paths, so a type stays assignable when declarations of new names are added.  Two graphs
that hold the same declarations under the names that a type reaches have the same paths from the
type, whatever they hold under other names.
-/

namespace InstanceState.TypeGraph

variable {g g' : TypeGraph}

/-! ### More declarations -/

/-- Each declaration that a graph holds is held by another under the same name. -/
def IncludedIn (g g' : TypeGraph) : Prop :=
  ∀ name d, g.find? name = some d → g'.find? name = some d

theorem find?_extend_of_ne {name : Text} {new : List DeclaredType}
    (h : ∀ d ∈ new, d.name.text ≠ name) :
  (g.extend new).find? name = g.find? name
  := by
  induction new generalizing g with
  | nil => rfl
  | cons d new ih =>
    obtain ⟨hd, hnew⟩ := List.forall_mem_cons.1 h
    rw [extend, List.foldl_cons, ← extend, ih hnew, find?_insert, if_neg hd]

/-- Declarations of names that a graph does not hold can be added to it. -/
theorem includedIn_extend {new : List DeclaredType}
    (h : ∀ d ∈ new, g.contains d.name.text = false) :
  g.IncludedIn (g.extend new)
  := by
  intro name d hd
  rw [find?_extend_of_ne, hd]
  rintro d' hd' rfl
  have hcontains := h d' hd'
  rw [contains, hd] at hcontains
  contradiction

namespace IncludedIn

theorem step (h : g.IncludedIn g') {name parent : Text} (hstep : g.Step name parent) :
  g'.Step name parent
  := by
  obtain ⟨d, s, hd, hs, hparent⟩ := hstep
  use d, s, h name d hd, hs, hparent

theorem isAssignable (h : g.IncludedIn g') {type target : Text}
    (ha : g.isAssignable type target = true) :
  g'.isAssignable type target = true
  := by
  have hsteps : g.Step ≤ g'.Step := fun _ _ => h.step
  rw [isAssignable_iff_reachable] at ha ⊢
  apply Relation.ReflTransGen.mono hsteps _ _ ha

theorem family (h : g.IncludedIn g') {owner : TypeName} {viewBases : List Text}
    (hview : g.family owner viewBases = .view) :
  g'.family owner viewBases = .view
  := by
  rw [TypeGraph.family] at hview ⊢
  split at hview
  · rename_i hany
    obtain ⟨base, hbase, ha⟩ := List.any_eq_true.1 hany
    rw [if_pos]
    apply List.any_eq_true.2
    use base, hbase, h.isAssignable ha
  · contradiction

end IncludedIn

/-! ### The same declarations on all paths -/

/-- Under each name that a type reaches, two graphs hold the same declaration or both none. -/
def AgreesFrom (g g' : TypeGraph) (type : Text) : Prop :=
  ∀ name, g.Reachable (erasure type) name → g'.find? name = g.find? name

namespace AgreesFrom

variable {type : Text}

/-- The paths of one graph are those of the other, step by step. -/
theorem reachable_iff (h : g.AgreesFrom g' type) {name : Text} :
  g'.Reachable (erasure type) name ↔ g.Reachable (erasure type) name
  := by
  constructor
  · intro hpath
    induction hpath with
    | refl => apply Relation.ReflTransGen.refl
    | tail _ hstep ih =>
      apply ih.tail
      rw [Step, ← h _ ih]
      exact hstep
  · intro hpath
    induction hpath with
    | refl => apply Relation.ReflTransGen.refl
    | tail hpath hstep ih =>
      apply ih.tail
      rw [Step, h _ hpath]
      exact hstep

theorem isAssignable (h : g.AgreesFrom g' type) (target : Text) :
  g'.isAssignable type target = g.isAssignable type target
  := by
  rw [Bool.eq_iff_iff, isAssignable_iff_reachable, isAssignable_iff_reachable, h.reachable_iff]

theorem family {owner : TypeName} (h : g.AgreesFrom g' owner.text) (viewBases : List Text) :
  g'.family owner viewBases = g.family owner viewBases
  := by
  simp only [TypeGraph.family, h.isAssignable]

end AgreesFrom

/-- Names that the declarations under them do not lead out of. -/
def IsClosed (g : TypeGraph) (names : List Text) : Prop :=
  ∀ name ∈ names, ∀ d ∈ g.find? name, ∀ parent ∈ d.parents, parent ∈ names

instance (g : TypeGraph) (names : List Text) : Decidable (g.IsClosed names) :=
  inferInstanceAs (Decidable (∀ name ∈ names, ∀ d ∈ g.find? name, ∀ parent ∈ d.parents, _))

theorem IsClosed.mem_of_reachable {names : List Text} (h : g.IsClosed names) {name ancestor : Text}
    (hname : name ∈ names) (hpath : g.Reachable name ancestor) :
  ancestor ∈ names
  := by
  induction hpath with
  | refl => exact hname
  | tail _ hstep ih =>
    obtain ⟨d, s, hd, hs, rfl⟩ := hstep
    apply h _ ih d hd
    apply DeclaredType.mem_parents_iff.2
    use s, hs

/-- It is enough that the graphs agree on closed names, of which the type is one. -/
theorem agreesFrom_of_isClosed {names : List Text} (h : g.IsClosed names)
    (hagree : ∀ name ∈ names, g'.find? name = g.find? name) {type : Text}
    (htype : erasure type ∈ names) :
  g.AgreesFrom g' type
  := by
  intro name hpath
  apply hagree
  apply h.mem_of_reachable htype hpath

end InstanceState.TypeGraph
