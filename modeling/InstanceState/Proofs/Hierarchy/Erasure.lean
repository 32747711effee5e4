import InstanceState.Hierarchy.Assignable
import InstanceState.Proofs.Text.Trim

/-!
# Erasure

The erasure of a type is what comes before its first angle bracket, so it is not changed by what
is written after the bracket.  A type whose erasure no declared type can have as its name is
assignable only to what has the same erasure.
-/

namespace InstanceState

/-! ### Texts before a bracket -/

theorem erasure_append_openAngle {a : Text} (h : '<' ∉ a) (b : Text) :
  erasure (a ++ '<' :: b) = Text.trim a
  := by
  have hcut : Text.cutFirst? '<' (Text.trimStart a ++ '<' :: Text.trimEnd b)
      = some (Text.trimStart a, Text.trimEnd b) := by
    rw [Text.cutFirst?_eq_some_iff]
    constructor
    · rfl
    · intro hmem
      apply h ((List.dropWhile_sublist _).subset hmem)
  rw [erasure, Text.trim_append_cons (by decide), hcut]
  rfl

theorem erasure_of_not_mem {t : Text} (h : '<' ∉ t) :
  erasure t = Text.trim t
  := by
  rw [erasure, Text.cutFirst?_eq_none_iff.2]
  intro h'
  apply h (Text.mem_of_mem_trim h')

theorem erasure_trim (t : Text) :
  erasure (Text.trim t) = erasure t
  := by
  rw [erasure, erasure, Text.trim_trim]

/-- What is written after a bracket makes no difference to the erasure. -/
theorem erasure_append_of_mem {t : Text} (h : '<' ∈ t) (u : Text) :
  erasure (t ++ u) = erasure t
  := by
  obtain ⟨a, b, rfl, ha⟩ := List.eq_append_cons_of_mem h
  rw [List.append_assoc, List.cons_append, erasure_append_openAngle ha,
    erasure_append_openAngle ha]

/-! ### Erased texts -/

theorem openAngle_not_mem_erasure (t : Text) :
  '<' ∉ erasure t
  := by
  by_cases h : '<' ∈ t
  · obtain ⟨a, b, rfl, ha⟩ := List.eq_append_cons_of_mem h
    rw [erasure_append_openAngle ha, Text.mem_trim_iff (by decide)]
    apply ha
  · rw [erasure_of_not_mem h, Text.mem_trim_iff (by decide)]
    apply h

theorem trim_erasure (t : Text) :
  Text.trim (erasure t) = erasure t
  := by
  by_cases h : '<' ∈ t
  · obtain ⟨a, b, rfl, ha⟩ := List.eq_append_cons_of_mem h
    rw [erasure_append_openAngle ha, Text.trim_trim]
  · rw [erasure_of_not_mem h, Text.trim_trim]

theorem erasure_erasure (t : Text) :
  erasure (erasure t) = erasure t
  := by
  rw [erasure_of_not_mem (openAngle_not_mem_erasure t), trim_erasure]

/-! ### Declared supertypes -/

namespace TypeGraph

variable {g : TypeGraph}

theorem reaches_of_mem {target : Text} {visited pending : List Text} (h : target ∈ pending) :
  g.reaches target visited pending = true
  := by
  fun_induction reaches g target visited pending with
  | case1 => contradiction
  | case2 => rfl
  | case3 visited name pending hne hv ih =>
    apply ih
    apply List.mem_of_ne_of_mem (Ne.symm hne) h
  | case4 visited name pending hne hv hfind ih =>
    apply ih
    apply List.mem_of_ne_of_mem (Ne.symm hne) h
  | case5 visited name pending hne hv d hfind ih =>
    apply ih
    apply List.mem_append_right
    apply List.mem_of_ne_of_mem (Ne.symm hne) h

/-- A known type is assignable to the direct supertypes that it declares. -/
theorem isAssignable_of_mem_parents {type target : Text} {d : DeclaredType}
    (h : g.find? (erasure type) = some d) (ht : erasure target ∈ d.parents) :
  g.isAssignable type target = true
  := by
  rw [isAssignable, reaches]
  by_cases heq : erasure type = erasure target
  · rw [if_pos heq]
  · rw [if_neg heq, dif_neg List.not_mem_nil]
    split
    · simp_all
    · rename_i d' h'
      rw [h] at h'
      cases h'
      apply reaches_of_mem
      apply List.mem_append_left _ ht

theorem isAssignable_congr {s t : Text} (h : erasure s = erasure t) (target : Text) :
  g.isAssignable s target = g.isAssignable t target
  := by
  rw [isAssignable, isAssignable, h]

/-! ### Names that no type has -/

/-- No declared type has the character in its name. -/
def NamesAvoid (g : TypeGraph) (c : Char) : Prop := ∀ d ∈ g.declarations, c ∉ d.name.text

theorem NamesAvoid.insert {c : Char} (hg : g.NamesAvoid c) {d : DeclaredType}
    (hd : c ∉ d.name.text) :
  (g.insert d).NamesAvoid c
  := by
  intro d' hd'
  rcases List.mem_cons.1 hd' with rfl | hd'
  · exact hd
  · apply hg d' hd'

theorem find?_of_namesAvoid {c : Char} (hg : g.NamesAvoid c) {name : Text} (hc : c ∈ name) :
  g.find? name = none
  := by
  rw [find?, List.find?_eq_none]
  intro d hd
  rw [decide_eq_true_eq]
  rintro rfl
  apply hg d hd hc

theorem isAssignable_of_find?_eq_none {type target : Text} (h : g.find? (erasure type) = none) :
  g.isAssignable type target = decide (erasure type = erasure target)
  := by
  rw [isAssignable, reaches]
  by_cases heq : erasure type = erasure target
  · rw [if_pos heq, decide_eq_true heq]
  · rw [if_neg heq, dif_neg List.not_mem_nil, decide_eq_false heq]
    split
    · rw [reaches]
    · simp_all

/-- A type with a character in its erasure that no declared type has in its name is not assignable
to a target without the character. -/
theorem isAssignable_of_namesAvoid {c : Char} (hg : g.NamesAvoid c) {type target : Text}
    (hc : c ∈ erasure type) (ht : c ∉ erasure target) :
  g.isAssignable type target = false
  := by
  rw [isAssignable_of_find?_eq_none (find?_of_namesAvoid hg hc), decide_eq_false_iff_not]
  intro h
  apply ht
  rw [← h]
  exact hc

end TypeGraph

end InstanceState
