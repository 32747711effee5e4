import InstanceState.Hierarchy.Assignable
import Mathlib.Data.List.Nodup
import Mathlib.Data.List.Perm.Subperm
import Mathlib.Logic.Relation

/-!
# Reachability

The search for a supertype answers exactly whether the target is reached through declared
supertypes.  The visited names lose no path: whatever a visited name has as a direct supertype is
itself visited or still pending, so a target that is not found is not reached from any of them.
`search` is the same search with a record of the declarations that it follows, and follows no
name twice.
-/

namespace InstanceState

theorem DeclaredType.mem_parents_iff {d : DeclaredType} {parent : Text} :
  parent ∈ d.parents ↔ ∃ s, (d.superclass = some s ∨ s ∈ d.interfaces) ∧ erasure s.text = parent
  := by
  rw [parents, supertypes, List.mem_map]
  simp only [List.mem_append, Option.mem_toList]

namespace TypeGraph

variable {g : TypeGraph} {target : Text} {visited pending : List Text}

/-! ### Steps -/

/-- A step leads from a name to the erasure of the superclass or of an interface of the type
declared under exactly that name. -/
def Step (g : TypeGraph) (name parent : Text) : Prop :=
  ∃ d s, g.find? name = some d ∧ (d.superclass = some s ∨ s ∈ d.interfaces)
    ∧ erasure s.text = parent

/-- A name is reached from another by any number of steps, or by none. -/
abbrev Reachable (g : TypeGraph) : Text → Text → Prop := Relation.ReflTransGen g.Step

theorem step_iff {name parent : Text} {d : DeclaredType} (h : g.find? name = some d) :
  g.Step name parent ↔ parent ∈ d.parents
  := by
  rw [DeclaredType.mem_parents_iff]
  constructor
  · rintro ⟨d', s, h', hs, hp⟩
    cases h.symm.trans h'
    use s, hs, hp
  · rintro ⟨s, hs, hp⟩
    use d, s, h, hs, hp

theorem not_step_of_find?_eq_none {name : Text} (h : g.find? name = none) (parent : Text) :
  ¬ g.Step name parent
  := by
  rintro ⟨d, s, h', -⟩
  cases h.symm.trans h'

/-! ### The search finds what is reached -/

theorem exists_reachable_of_reaches (h : g.reaches target visited pending = true) :
  ∃ name ∈ pending, g.Reachable name target
  := by
  fun_induction reaches g target visited pending with
  | case1 => contradiction
  | case2 => exact ⟨target, List.mem_cons_self, .refl⟩
  | case3 visited name pending hne hv ih =>
    obtain ⟨x, hx, hpath⟩ := ih h
    use x, List.mem_cons_of_mem _ hx, hpath
  | case4 visited name pending hne hv hfind ih =>
    obtain ⟨x, hx, hpath⟩ := ih h
    use x, List.mem_cons_of_mem _ hx, hpath
  | case5 visited name pending hne hv d hfind ih =>
    obtain ⟨x, hx, hpath⟩ := ih h
    rcases List.mem_append.1 hx with hx | hx
    · use name, List.mem_cons_self
      apply hpath.head ((step_iff hfind).2 hx)
    · use x, List.mem_cons_of_mem _ hx, hpath

/-- What a search that is under way has seen: the target is none of the visited names, and each
step from a visited name leads to a visited or a pending one. -/
structure Explored (g : TypeGraph) (target : Text) (visited pending : List Text) : Prop where
  target_not_mem : target ∉ visited
  step_mem : ∀ name ∈ visited, ∀ parent, g.Step name parent → parent ∈ visited ∨ parent ∈ pending

namespace Explored

theorem skip {name : Text} (h : g.Explored target visited (name :: pending))
    (hv : name ∈ visited) :
  g.Explored target visited pending
  := by
  use h.target_not_mem
  intro x hx parent hstep
  rcases h.step_mem x hx parent hstep with hp | hp
  · left
    exact hp
  · rcases List.mem_cons.1 hp with rfl | hp
    · left
      exact hv
    · right
      exact hp

/-- A pending name other than the target becomes a visited one, when the names that its steps lead
to become pending. -/
theorem visit {name : Text} {parents : List Text}
    (h : g.Explored target visited (name :: pending)) (hne : name ≠ target)
    (hparents : ∀ parent, g.Step name parent → parent ∈ parents) :
  g.Explored target (name :: visited) (parents ++ pending)
  := by
  constructor
  · intro hmem
    rcases List.mem_cons.1 hmem with rfl | hmem
    · apply hne rfl
    · apply h.target_not_mem hmem
  · intro x hx parent hstep
    rcases List.mem_cons.1 hx with rfl | hx
    · right
      apply List.mem_append_left _ (hparents parent hstep)
    · rcases h.step_mem x hx parent hstep with hp | hp
      · left
        apply List.mem_cons_of_mem _ hp
      · rcases List.mem_cons.1 hp with rfl | hp
        · left
          apply List.mem_cons_self
        · right
          apply List.mem_append_right _ hp

/-- With nothing pending, the target is not reached from a visited name. -/
theorem not_reachable (h : g.Explored target visited []) {name : Text} (hv : name ∈ visited) :
  ¬ g.Reachable name target
  := by
  intro hpath
  induction hpath using Relation.ReflTransGen.head_induction_on with
  | refl => apply h.target_not_mem hv
  | head hstep _ ih =>
    apply ih
    apply (h.step_mem _ hv _ hstep).resolve_right List.not_mem_nil

end Explored

/-- A search that fails has lost no path: the target is reached neither from a pending nor from a
visited name. -/
theorem not_reachable_of_reaches (h : g.reaches target visited pending = false)
    (hexplored : g.Explored target visited pending) :
  ∀ name, name ∈ visited ∨ name ∈ pending → ¬ g.Reachable name target
  := by
  fun_induction reaches g target visited pending with
  | case1 =>
    intro name hname
    apply hexplored.not_reachable (hname.resolve_right List.not_mem_nil)
  | case2 => contradiction
  | case3 visited name pending hne hv ih =>
    intro x hx
    apply ih h (hexplored.skip hv)
    rcases hx with hx | hx
    · left
      exact hx
    · rcases List.mem_cons.1 hx with rfl | hx
      · left
        exact hv
      · right
        exact hx
  | case4 visited name pending hne hv hfind ih =>
    have hvisit : g.Explored target (name :: visited) ([] ++ pending) :=
      hexplored.visit hne fun parent hstep =>
        absurd hstep (not_step_of_find?_eq_none hfind parent)
    intro x hx
    apply ih h hvisit
    rw [List.mem_cons]
    rw [List.mem_cons] at hx
    tauto
  | case5 visited name pending hne hv d hfind ih =>
    intro x hx
    apply ih h (hexplored.visit hne fun parent hstep => (step_iff hfind).1 hstep)
    rw [List.mem_append, List.mem_cons]
    rw [List.mem_cons] at hx
    tauto

theorem explored_nil (g : TypeGraph) (target : Text) (pending : List Text) :
  g.Explored target [] pending
  := ⟨List.not_mem_nil, fun _ h => absurd h List.not_mem_nil⟩

theorem isAssignable_iff_reachable {type target : Text} :
  g.isAssignable type target = true ↔ g.Reachable (erasure type) (erasure target)
  := by
  constructor
  · intro h
    obtain ⟨name, hname, hpath⟩ := exists_reachable_of_reaches h
    rw [← List.mem_singleton.1 hname]
    exact hpath
  · intro hpath
    rw [← Bool.not_eq_false]
    intro h
    apply not_reachable_of_reaches h (explored_nil ..) (erasure type) _ hpath
    right
    apply List.mem_singleton_self

/-! ### Declarations are followed once -/

/-- The search with a record of the declarations that it follows, in order. -/
def search (g : TypeGraph) (target : Text) (visited : List Text) :
    List Text → Bool × List DeclaredType
  | [] => (false, [])
  | name :: pending =>
    if name = target then (true, [])
    else if _hv : name ∈ visited then g.search target visited pending
    else
      match _h : g.find? name with
      | none => g.search target (name :: visited) pending
      | some d =>
        let result := g.search target (name :: visited) (d.parents ++ pending)
        (result.1, d :: result.2)
termination_by pending => (g.unvisited visited, pending.length)
decreasing_by
  · exact Prod.Lex.right _ (by simp)
  · rcases Nat.lt_or_eq_of_le (g.unvisited_cons_le visited name) with hlt | heq
    · exact Prod.Lex.left _ _ hlt
    · rw [heq]
      exact Prod.Lex.right _ (by simp)
  · exact Prod.Lex.left _ _ (unvisited_cons_lt (by assumption) (by assumption))

theorem search_fst :
  (g.search target visited pending).1 = g.reaches target visited pending
  := by
  fun_induction reaches g target visited pending with
  | case1 => rw [search]
  | case2 visited pending => rw [search, if_pos rfl]
  | case3 visited name pending hne hv ih => rw [search, if_neg hne, dif_pos hv, ih]
  | case4 visited name pending hne hv hfind ih =>
    rw [search, if_neg hne, dif_neg hv]
    split
    · exact ih
    · simp_all
  | case5 visited name pending hne hv d hfind ih =>
    rw [search, if_neg hne, dif_neg hv]
    split
    · simp_all
    · rename_i d' hfind'
      cases hfind.symm.trans hfind'
      exact ih

/-- A declaration that is followed is the one held under its name, and the name was not visited
before. -/
theorem mem_search_snd {d : DeclaredType} (h : d ∈ (g.search target visited pending).2) :
  g.find? d.name.text = some d ∧ d.name.text ∉ visited
  := by
  fun_induction search g target visited pending with
  | case1 => contradiction
  | case2 => contradiction
  | case3 visited name pending hne hv ih => exact ih h
  | case4 visited name pending hne hv hfind ih =>
    obtain ⟨hd, hn⟩ := ih h
    use hd
    exact fun hmem => hn (List.mem_cons_of_mem _ hmem)
  | case5 visited name pending hne hv d' hfind result ih =>
    rcases List.mem_cons.1 h with rfl | h
    · rw [name_of_find? hfind]
      use hfind
    · obtain ⟨hd, hn⟩ := ih h
      use hd
      exact fun hmem => hn (List.mem_cons_of_mem _ hmem)

theorem names_search_nodup :
  ((g.search target visited pending).2.map fun d => d.name.text).Nodup
  := by
  fun_induction search g target visited pending with
  | case1 => exact .nil
  | case2 => exact .nil
  | case3 visited name pending hne hv ih => exact ih
  | case4 visited name pending hne hv hfind ih => exact ih
  | case5 visited name pending hne hv d hfind result ih =>
    rw [List.map_cons, List.nodup_cons]
    refine ⟨fun hmem => ?_, ih⟩
    obtain ⟨d', hd', hname⟩ := List.mem_map.1 hmem
    apply (mem_search_snd hd').2
    rw [hname, name_of_find? hfind]
    apply List.mem_cons_self

/-! ### Assignability -/

/-- A type is assignable to a target exactly if the erasure of the target is reached from that of
the type.  The search that answers follows each declaration at most once, so no more than the
graph has, and assignability is reflexive and transitive. -/
theorem isAssignable_decides_reachability (g : TypeGraph) :
  (∀ type target : Text,
      g.isAssignable type target = true ↔ g.Reachable (erasure type) (erasure target))
    ∧ (∀ type target : Text,
      ∃ followed : List DeclaredType,
        g.search (erasure target) [] [erasure type] = (g.isAssignable type target, followed)
          ∧ (followed.map fun d => d.name.text).Nodup
          ∧ (∀ d ∈ followed, g.find? d.name.text = some d)
          ∧ followed.length ≤ g.declarations.length)
    ∧ (∀ type : Text, g.isAssignable type type = true)
    ∧ ∀ a b c : Text, g.isAssignable a b = true → g.isAssignable b c = true →
      g.isAssignable a c = true
  := by
  refine ⟨fun _ _ => isAssignable_iff_reachable, fun type target => ?_, fun type => ?_,
    fun a b c hab hbc => ?_⟩
  · use (g.search (erasure target) [] [erasure type]).2
    have hfound : ∀ d ∈ (g.search (erasure target) [] [erasure type]).2,
        g.find? d.name.text = some d := fun d hd => (mem_search_snd hd).1
    refine ⟨Prod.ext search_fst rfl, names_search_nodup, hfound, ?_⟩
    have hsubset := List.subperm_of_subset (names_search_nodup.of_map _)
      fun d hd => mem_of_find? (hfound d hd)
    apply hsubset.length_le
  · apply isAssignable_iff_reachable.2 .refl
  · apply isAssignable_iff_reachable.2
    exact (isAssignable_iff_reachable.1 hab).trans (isAssignable_iff_reachable.1 hbc)

/-- Two types that declare each other, the first with a type argument, and of which the second
declares also an unknown type. -/
def ring : TypeGraph :=
  ⟨[⟨⟨"a.Front"⟩, some ⟨"a.Back<a.Front>"⟩, []⟩,
    ⟨⟨"a.Back"⟩, none, [⟨"a.Unknown"⟩, ⟨"a.Front"⟩, ⟨"a.Mark"⟩]⟩]⟩

/-- The search goes round the ring once, past the unknown type, and finds what lies behind. -/
theorem ring_isAssignable :
  ring.isAssignable "a.Front<x>" "a.Back" = true ∧ ring.isAssignable "a.Back" "a.Mark" = true
    ∧ ring.isAssignable "a.Front<x>" "a.Mark" = true
    ∧ ∃ followed, ring.search "a.Mark" [] ["a.Front"] = (true, followed) ∧ followed.length ≤ 2
  := by
  obtain ⟨hiff, hsearch, -, htrans⟩ := isAssignable_decides_reachability ring
  have hfront : ring.isAssignable "a.Front<x>" "a.Back" = true := by
    rw [hiff]
    apply Relation.ReflTransGen.single
    use ⟨⟨"a.Front"⟩, some ⟨"a.Back<a.Front>"⟩, []⟩, ⟨"a.Back<a.Front>"⟩
    decide
  have hback : ring.isAssignable "a.Back" "a.Mark" = true := by
    rw [hiff]
    apply Relation.ReflTransGen.single
    use ⟨⟨"a.Back"⟩, none, [⟨"a.Unknown"⟩, ⟨"a.Front"⟩, ⟨"a.Mark"⟩]⟩, ⟨"a.Mark"⟩
    decide
  have hmark := htrans _ _ _ hfront hback
  obtain ⟨followed, hfollowed, -, -, hlength⟩ := hsearch "a.Front<x>" "a.Mark"
  rw [hmark] at hfollowed
  use hfront, hback, hmark, followed, hfollowed, hlength

end TypeGraph

end InstanceState
