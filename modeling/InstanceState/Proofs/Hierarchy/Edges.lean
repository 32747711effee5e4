import InstanceState.Model.Basic
import InstanceState.Proofs.Hierarchy.Comparison

/-!
# Declared edges

A graph holds its declarations under their names as they are written, and the search for a
supertype looks up erasures only.  So the edges of a declaration count if its name is its own
erasure, and a declaration of any other name is as good as absent.
-/

namespace InstanceState

/-! ### Names in normal form -/

/-- A name without blank characters at its ends and without type arguments. -/
def TypeName.IsErased (n : TypeName) : Prop := Text.trim n.text = n.text ∧ '<' ∉ n.text

theorem TypeName.isErased_iff (n : TypeName) :
  n.IsErased ↔ erasure n.text = n.text
  := by
  constructor
  · rintro ⟨htrim, hopen⟩
    rw [erasure_of_not_mem hopen, htrim]
  · intro h
    rw [IsErased, ← h]
    use trim_erasure _, openAngle_not_mem_erasure _

instance (n : TypeName) : Decidable n.IsErased :=
  inferInstanceAs (Decidable (Text.trim n.text = n.text ∧ '<' ∉ n.text))

namespace TypeGraph

variable {g : TypeGraph}

/-! ### Names that are reached -/

theorem erasure_of_step {name parent : Text} (h : g.Step name parent) :
  erasure parent = parent
  := by
  obtain ⟨d, s, -, -, rfl⟩ := h
  apply erasure_erasure

theorem erasure_of_reachable {name ancestor : Text} (hname : erasure name = name)
    (h : g.Reachable name ancestor) :
  erasure ancestor = ancestor
  := by
  cases h with
  | refl => apply hname
  | tail _ hstep => apply erasure_of_step hstep

/-! ### Graphs without a name -/

/-- The graph without the declarations of a name. -/
def without (g : TypeGraph) (name : Text) : TypeGraph :=
  ⟨g.declarations.filter fun d => d.name.text ≠ name⟩

theorem find?_without_of_ne {name other : Text} (h : other ≠ name) :
  (g.without name).find? other = g.find? other
  := by
  rw [find?, without, List.find?_filter, find?]
  congr
  funext d
  by_cases hd : d.name.text = other
  · simp [hd, h]
  · simp [hd]

/-- No path leads through a name that is not its own erasure. -/
theorem agreesFrom_without {name : Text} (hname : erasure name ≠ name) (type : Text) :
  g.AgreesFrom (g.without name) type
  := by
  intro other hpath
  apply find?_without_of_ne
  rintro rfl
  apply hname (erasure_of_reachable (erasure_erasure type) hpath)

/-- A declaration whose name is not its own erasure makes no difference. -/
theorem isAssignable_without {name : Text} (hname : erasure name ≠ name) (type target : Text) :
  (g.without name).isAssignable type target = g.isAssignable type target
  := by
  apply (agreesFrom_without hname type).isAssignable

/-! ### The edges of a declaration -/

theorem isAssignable_of_supertype {d : DeclaredType} (hd : g.find? d.name.text = some d)
    (hname : d.name.IsErased) {s : TypeName} (hs : s ∈ d.supertypes) :
  g.isAssignable d.name.text s.text = true
  := by
  apply isAssignable_of_mem_parents (d := d)
  · rw [d.name.isErased_iff.1 hname]
    apply hd
  · apply List.mem_map_of_mem hs

end TypeGraph

namespace Model

open TypeGraph

/-- The edges of a declaration that the graph of a model holds count if its name has no blank
characters at its ends and no type arguments.  If it has, the declaration is as good as absent, and
an edge counts only if there is another way to the supertype. -/
theorem edges_count_iff (m : Model) {d : DeclaredType} (hd : m.graph.find? d.name.text = some d) :
  (∀ s ∈ d.supertypes, m.graph.isAssignable d.name.text s.text = true
      ↔ d.name.IsErased ∨ (m.graph.without d.name.text).isAssignable d.name.text s.text = true)
    ∧ (d.name.IsErased → ∀ s ∈ d.supertypes, ∀ target,
      m.graph.isAssignable s.text target = true
        → m.graph.isAssignable d.name.text target = true)
    ∧ (¬ d.name.IsErased → ∀ type target,
      m.graph.isAssignable type target
        = (m.graph.without d.name.text).isAssignable type target)
  := by
  have hcount : d.name.IsErased → ∀ s ∈ d.supertypes,
      m.graph.isAssignable d.name.text s.text = true := by
    intro hname s hs
    apply isAssignable_of_supertype hd hname hs
  have habsent : ¬ d.name.IsErased → ∀ type target,
      m.graph.isAssignable type target
        = (m.graph.without d.name.text).isAssignable type target := by
    intro hname type target
    symm
    apply isAssignable_without
    apply mt d.name.isErased_iff.2 hname
  refine ⟨?_, ?_, habsent⟩
  · intro s hs
    by_cases hname : d.name.IsErased
    · apply iff_of_true (hcount hname s hs) (Or.inl hname)
    · rw [habsent hname, or_iff_right hname]
  · intro hname s hs target hpath
    rw [isAssignable_iff_reachable] at hpath ⊢
    apply (isAssignable_iff_reachable.1 (hcount hname s hs)).trans hpath

/-- A parcelable type whose name is written with a blank character before it. -/
def box : DeclaredType := ⟨⟨" a.Box"⟩, none, [⟨parcelableName⟩]⟩

/-- Another parcelable type. -/
def crate : DeclaredType := ⟨⟨"a.Crate"⟩, none, [⟨parcelableName⟩]⟩

/-- The model of the two types. -/
def storage : Model where
  types := [box, crate]

/-- The document of the model. -/
def storageDocument : Text :=
  "[[[\" a.Box\",null,[\"android.os.Parcelable\"]],"
    ++ "[\"a.Crate\",null,[\"android.os.Parcelable\"]]]]"

/-- Of the two types only the one with a plain name is assignable to what it declares. -/
theorem storage_edges_count :
  Model.parse storageDocument = some storage
    ∧ storage.graph.find? box.name.text = some box
    ∧ storage.graph.isAssignable box.name.text parcelableName = false
    ∧ storage.graph.find? crate.name.text = some crate
    ∧ storage.graph.isAssignable crate.name.text parcelableName = true
  := by
  have hparse : Model.parse storageDocument = some storage := by
    decide +kernel
  have hbox : storage.graph.find? box.name.text = some box := by
    decide
  have hcrate : storage.graph.find? crate.name.text = some crate := by
    decide
  refine ⟨hparse, hbox, ?_, hcrate, ?_⟩
  · obtain ⟨-, -, habsent⟩ := storage.edges_count_iff hbox
    have hunknown : (storage.graph.without box.name.text).find? (erasure box.name.text) = none := by
      decide
    rw [habsent (by decide), isAssignable_of_find?_eq_none hunknown]
    decide
  · obtain ⟨hcount, -, -⟩ := storage.edges_count_iff hcrate
    rw [hcount ⟨parcelableName⟩ (by decide)]
    left
    decide

end Model

end InstanceState
