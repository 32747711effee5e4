import InstanceState.Hierarchy.Graph

/-!
# Assignability

A type can be used as another if the other is reached from it through declared supertypes, all
taken without their type arguments.  The search is depth first with one set of visited names, so
that no declaration is followed twice and the search ends on every graph.
-/

namespace InstanceState

/-- The type without its type arguments: what comes before the first `<`. -/
def erasure (type : Text) : Text :=
  match Text.cutFirst? '<' (Text.trim type) with
  | some (base, _) => Text.trimEnd base
  | none => Text.trim type

/-- The names of the direct supertypes, without their type arguments. -/
def DeclaredType.parents (d : DeclaredType) : List Text :=
  d.supertypes.map fun s => erasure s.text

namespace TypeGraph

/-- The number of declarations whose name is not among the visited ones. -/
def unvisited (g : TypeGraph) (visited : List Text) : Nat :=
  g.declarations.countP fun d => d.name.text ∉ visited

theorem unvisited_cons_le (g : TypeGraph) (visited : List Text) (name : Text) :
  g.unvisited (name :: visited) ≤ g.unvisited visited
  := by
  apply List.countP_mono_left
  intro d _ h
  simp_all

theorem unvisited_cons_lt {g : TypeGraph} {visited : List Text} {name : Text} {d : DeclaredType}
    (h : g.find? name = some d) (hv : name ∉ visited) :
  g.unvisited (name :: visited) < g.unvisited visited
  := by
  have hd := name_of_find? h
  obtain ⟨before, after, hs⟩ := List.append_of_mem (mem_of_find? h)
  have hb := List.countP_mono_left (l := before) (p := fun d => d.name.text ∉ name :: visited)
    (q := fun d => d.name.text ∉ visited) (by intro e _ he; simp_all)
  have ha := List.countP_mono_left (l := after) (p := fun d => d.name.text ∉ name :: visited)
    (q := fun d => d.name.text ∉ visited) (by intro e _ he; simp_all)
  simp only [unvisited, hs, List.countP_append, List.countP_cons, hd]
  simp [hv]
  simp at hb ha
  omega

/-- Whether the target is reached from one of the pending names, apart from what leads through
visited names only. -/
def reaches (g : TypeGraph) (target : Text) (visited : List Text) : List Text → Bool
  | [] => false
  | name :: pending =>
    if name = target then true
    else if _hv : name ∈ visited then g.reaches target visited pending
    else
      match _h : g.find? name with
      | none => g.reaches target (name :: visited) pending
      | some d => g.reaches target (name :: visited) (d.parents ++ pending)
termination_by pending => (g.unvisited visited, pending.length)
decreasing_by
  · exact Prod.Lex.right _ (by simp)
  · rcases Nat.lt_or_eq_of_le (g.unvisited_cons_le visited name) with hlt | heq
    · exact Prod.Lex.left _ _ hlt
    · rw [heq]
      exact Prod.Lex.right _ (by simp)
  · exact Prod.Lex.left _ _ (unvisited_cons_lt (by assumption) (by assumption))

/-- Whether a type is the target or declares it, directly or through other known types. -/
def isAssignable (g : TypeGraph) (type target : Text) : Bool :=
  g.reaches (erasure target) [] [erasure type]

end TypeGraph

end InstanceState
