import InstanceState.Proofs.Resolution.Rules
import Mathlib.Algebra.Group.Nat.Even

/-!
# Array types

An array type has the command of its element's arrays, or is left to its ancestry.  Its ancestry is
that of what comes before its first angle bracket: the pairs of brackets at the end are dropped
together with the type arguments.  So the arrays of a parcelable type with type arguments are
taken for parcelables in every second dimension, and an array type gets the fallback wherever its
erasure is not assignable to the parcelable base.
-/

namespace InstanceState

/-- The kinds of arrays. -/
def CommandKind.arrays : List CommandKind :=
  [.booleanArray, .byteArray, .charArray, .charSequenceArray, .doubleArray, .floatArray, .intArray,
   .longArray, .shortArray, .stringArray, .parcelableArray]

theorem CommandKind.mem_arrays_of_arrayOf? {kind array : CommandKind}
    (h : kind.arrayOf? = some array) :
  array ∈ arrays ∧ array.isParcelable = false
  := by
  cases kind <;> cases h <;> decide

namespace TypeShape

/-! ### Dimensions -/

/-- A type without the pairs of brackets at its end, and how many these are. -/
def peel (type : Text) : Text × Nat :=
  match _h : parse type with
  | .array element => ((peel element).1, (peel element).2 + 1)
  | _ => (type, 0)
termination_by type.length
decreasing_by exact length_lt_of_parse_array (by assumption)

/-- The number of dimensions of a type. -/
def dimensions (type : Text) : Nat := (peel type).2

/-- The type of the elements in the last dimension. -/
def core (type : Text) : Text := (peel type).1

theorem peel_of_array {type element : Text} (h : parse type = .array element) :
  peel type = (core element, dimensions element + 1)
  := by
  rw [peel]
  split
  · rename_i element' h'
    rw [h] at h'
    cases h'
    rfl
  · rename_i h'
    exact absurd h (h' element)

theorem peel_of_ne_array {type : Text} (h : ∀ element, parse type ≠ .array element) :
  peel type = (type, 0)
  := by
  rw [peel]
  split
  · rename_i element h'
    exact absurd h' (h element)
  · rfl

theorem dimensions_of_array {type element : Text} (h : parse type = .array element) :
  dimensions type = dimensions element + 1
  := by
  rw [dimensions, peel_of_array h]

theorem core_of_array {type element : Text} (h : parse type = .array element) :
  core type = core element
  := by
  rw [core, peel_of_array h]

theorem exists_of_dimensions_eq_succ {type : Text} {n : Nat} (h : dimensions type = n + 1) :
  ∃ element, parse type = .array element
  := by
  by_contra hne
  rw [dimensions, peel_of_ne_array fun element h' => hne ⟨element, h'⟩] at h
  contradiction

theorem core_of_dimensions_eq_zero {type : Text} (h : dimensions type = 0) :
  core type = type
  := by
  rw [core, peel_of_ne_array]
  intro element h'
  rw [dimensions_of_array h'] at h
  contradiction

theorem closeBracket_mem_of_array {type element : Text} (h : parse type = .array element) :
  ']' ∈ Text.trim type
  := by
  obtain ⟨s, hs, -⟩ := parse_eq_array_iff.1 h
  rw [hs]
  simp

theorem openAngle_mem_array_iff {type element : Text} (h : parse type = .array element) :
  '<' ∈ type ↔ '<' ∈ element
  := by
  obtain ⟨s, hs, rfl⟩ := parse_eq_array_iff.1 h
  rw [← Text.mem_trim_iff (by decide), hs, ← Text.mem_trim_iff (t := Text.trimEnd s) (by decide),
    Text.trim_trimEnd, Text.mem_trim_iff (by decide)]
  simp

/-- A type with type arguments has the erasure of its elements. -/
theorem erasure_of_array {type element : Text} (h : parse type = .array element)
    (ht : '<' ∈ type) :
  erasure type = erasure element
  := by
  have hmem := (openAngle_mem_array_iff h).1 ht
  obtain ⟨s, hs, rfl⟩ := parse_eq_array_iff.1 h
  rw [← Text.mem_trim_iff (by decide), Text.trim_trimEnd, Text.mem_trim_iff (by decide)] at hmem
  rw [← erasure_trim type, hs, erasure_append_of_mem hmem, ← erasure_trim (Text.trimEnd s),
    Text.trim_trimEnd, erasure_trim]

end TypeShape

namespace Resolver

open TypeShape

variable {r : Resolver}

/-! ### The command of an array type -/

theorem resolve_of_array {type element : Text} (h : parse type = .array element) :
  r.resolve type
    = (arrayCommand? element (r.resolve element).kind).getD (r.byAncestry (Text.trim type))
  := by
  rw [resolve_of_mem r (closeBracket_mem_of_array h) (by decide), h, shapeCommand?]

/-- An array type has a kind of its elements' arrays, is the array of a parcelable type, or has the
command that its ancestry gives it. -/
theorem resolve_array_cases {type element : Text} (h : parse type = .array element) :
  (∃ kind ∈ CommandKind.arrays, kind.isParcelable = false ∧ r.resolve type = .plain kind
      ∧ element.all isTableChar = true)
    ∨ ((r.resolve element).kind.isParcelable = true
      ∧ r.resolve type = .typed .parcelableArray element)
    ∨ ((r.resolve element).kind.isParcelable = false
      ∧ r.resolve type = r.byAncestry (Text.trim type))
  := by
  rw [resolve_of_array h, arrayCommand?]
  cases hkind : (arrayElementKind? element).bind CommandKind.arrayOf? with
  | some kind =>
    left
    obtain ⟨scalar, hscalar, harray⟩ := Option.bind_eq_some_iff.1 hkind
    obtain ⟨hmem, hparcelable⟩ := CommandKind.mem_arrays_of_arrayOf? harray
    use kind, hmem, hparcelable, rfl
    apply isTableChar_of_scalarKind? (Option.filter_eq_some_iff.1 hscalar).1
  | none =>
    right
    cases (r.resolve element).kind.isParcelable with
    | true =>
      left
      use rfl
      rfl
    | false =>
      right
      use rfl
      rfl

/-- An array type that is not taken for a parcelable has a kind of arrays or the fallback. -/
theorem array_or_fallback_iff {type element : Text} (h : parse type = .array element) :
  (r.resolve type).kind ∈ CommandKind.arrays ∨ r.resolve type = .fallback (Text.trim type)
    ↔ ¬ (r.resolve type).kind.isParcelable = true
  := by
  rcases resolve_array_cases h with ⟨kind, hmem, hkind, hr, -⟩ | ⟨-, hr⟩ | ⟨-, hr⟩
  · rw [hr]
    apply iff_of_true
    · left
      exact hmem
    · apply Bool.eq_false_iff.1 hkind
  · rw [hr]
    apply iff_of_true
    · left
      simp [Command.typed, CommandKind.arrays]
    · simp [Command.typed, CommandKind.isParcelable]
  · rw [hr, byAncestry]
    cases r.graph.isAssignable (Text.trim type) r.parcelableBase with
    | true =>
      simp [Command.typed, Command.fallback, CommandKind.arrays, CommandKind.isParcelable]
    | false =>
      simp [Command.typed, Command.fallback, CommandKind.isParcelable]

theorem resolve_of_isParcelable {type element : Text} (h : parse type = .array element)
    (hp : (r.resolve type).kind.isParcelable = true) :
  r.resolve type = .typed .parcelable (Text.trim type)
  := by
  rcases resolve_array_cases h with ⟨kind, -, hkind, hr, -⟩ | ⟨-, hr⟩ | ⟨-, hr⟩
  · rw [hr] at hp
    apply absurd hp (Bool.eq_false_iff.1 hkind)
  · rw [hr] at hp
    contradiction
  · rw [hr, byAncestry] at hp ⊢
    cases ha : r.graph.isAssignable (Text.trim type) r.parcelableBase with
    | true => rfl
    | false =>
      rw [ha] at hp
      contradiction

/-! ### Dimensions of parcelable types -/

theorem isParcelable_byAncestry (type : Text) :
  (r.byAncestry (Text.trim type)).kind.isParcelable = r.graph.isAssignable type r.parcelableBase
  := by
  rw [byAncestry, TypeGraph.isAssignable_congr (erasure_trim type)]
  cases r.graph.isAssignable type r.parcelableBase <;> rfl

section

variable (hg : r.graph.NamesAvoid '[') (hbase : '[' ∉ erasure r.parcelableBase)

include hg hbase

/-- An array type without type arguments is not assignable to the parcelable base. -/
theorem openAngle_mem_of_isAssignable {type element : Text} (h : parse type = .array element)
    (ha : r.graph.isAssignable type r.parcelableBase = true) :
  '<' ∈ type
  := by
  by_contra hmem
  obtain ⟨s, hs, -⟩ := parse_eq_array_iff.1 h
  have hbracket : '[' ∈ erasure type := by
    rw [erasure_of_not_mem hmem, hs]
    simp
  rw [TypeGraph.isAssignable_of_namesAvoid hg hbracket hbase] at ha
  contradiction

/-- An array type is parcelable if its ancestry says so and its elements are not parcelable. -/
theorem isParcelable_array_iff {type element : Text} (h : parse type = .array element) :
  (r.resolve type).kind.isParcelable = true
    ↔ r.graph.isAssignable type r.parcelableBase = true
      ∧ ¬ (r.resolve element).kind.isParcelable = true
  := by
  rcases resolve_array_cases h with ⟨kind, -, hkind, hr, hchars⟩ | ⟨he, hr⟩ | ⟨he, hr⟩
  · rw [hr]
    apply iff_of_false (Bool.eq_false_iff.1 hkind)
    rintro ⟨ha, -⟩
    have hmem := openAngle_mem_of_isAssignable hg hbase h ha
    have hchar := List.all_eq_true.1 hchars '<' ((openAngle_mem_array_iff h).1 hmem)
    contradiction
  · rw [hr, he]
    simp [Command.typed, CommandKind.isParcelable]
  · rw [hr, he, isParcelable_byAncestry]
    simp

theorem isAssignable_of_array {type element : Text} (h : parse type = .array element)
    (ha : r.graph.isAssignable type r.parcelableBase = true) :
  r.graph.isAssignable element r.parcelableBase = true
  := by
  have hmem := openAngle_mem_of_isAssignable hg hbase h ha
  rw [← TypeGraph.isAssignable_congr (erasure_of_array h hmem)]
  exact ha

/-- Of the types that are assignable to the parcelable base, those of even dimension are parcelable
with the type of their last elements, and those of odd dimension without it. -/
theorem isParcelable_iff_even {type : Text}
    (ha : r.graph.isAssignable type r.parcelableBase = true) :
  (r.resolve type).kind.isParcelable = true
    ↔ (Even (dimensions type) ↔ (r.resolve (core type)).kind.isParcelable = true)
  := by
  -- Each pair of brackets turns the answer around.
  generalize hn : dimensions type = n
  induction n generalizing type with
  | zero =>
    rw [core_of_dimensions_eq_zero hn]
    simp
  | succ n ih =>
    obtain ⟨element, h⟩ := exists_of_dimensions_eq_succ hn
    have ha' := isAssignable_of_array hg hbase h ha
    have hn' : dimensions element = n := by
      rw [dimensions_of_array h] at hn
      apply Nat.succ.inj hn
    rw [isParcelable_array_iff hg hbase h, ih ha' hn', core_of_array h, Nat.even_add_one]
    tauto

theorem isParcelable_iff {type element : Text} (h : parse type = .array element) :
  (r.resolve type).kind.isParcelable = true
    ↔ r.graph.isAssignable type r.parcelableBase = true
      ∧ (Even (dimensions type) ↔ (r.resolve (core type)).kind.isParcelable = true)
  := by
  constructor
  · intro hp
    obtain ⟨ha, -⟩ := (isParcelable_array_iff hg hbase h).1 hp
    use ha
    apply (isParcelable_iff_even hg hbase ha).1 hp
  · rintro ⟨ha, heven⟩
    apply (isParcelable_iff_even hg hbase ha).2 heven

/-- An array of arrays has the fallback if it is not assignable to the parcelable base. -/
theorem fallback_iff {type element : Text} (h : parse type = .array element)
    (hdim : 2 ≤ dimensions type) :
  r.resolve type = .fallback (Text.trim type)
    ↔ r.graph.isAssignable type r.parcelableBase = false
  := by
  have hinner : ∃ element', parse element = .array element' := by
    rw [dimensions_of_array h] at hdim
    apply exists_of_dimensions_eq_succ (n := dimensions element - 1)
    omega
  obtain ⟨element', h'⟩ := hinner
  rcases resolve_array_cases h with ⟨kind, -, -, -, hchars⟩ | ⟨he, hr⟩ | ⟨-, hr⟩
  · have hmem := Text.mem_of_mem_trim (closeBracket_mem_of_array h')
    have hchar := List.all_eq_true.1 hchars ']' hmem
    contradiction
  · obtain ⟨ha, -⟩ := (isParcelable_array_iff hg hbase h').1 he
    have hmem := openAngle_mem_of_isAssignable hg hbase h' ha
    have herasure := erasure_of_array h ((openAngle_mem_array_iff h).2 hmem)
    rw [hr, TypeGraph.isAssignable_congr herasure, ha]
    simp [Command.typed, Command.fallback]
  · rw [hr, byAncestry, TypeGraph.isAssignable_congr (erasure_trim type)]
    cases r.graph.isAssignable type r.parcelableBase with
    | true => simp [Command.typed, Command.fallback]
    | false => simp

/-- An array type gets a kind of arrays or the fallback, unless its erasure is assignable to the
parcelable base and its dimensions are even in number where the type of the last elements is
parcelable, odd where it is not: then the array is taken for a parcelable. -/
theorem resolve_array_iff {type s : Text} (ht : Text.trim type = s ++ "[]") :
  ((r.resolve type).kind ∈ CommandKind.arrays ∨ r.resolve type = .fallback (Text.trim type)
      ↔ ¬ (r.graph.isAssignable type r.parcelableBase = true
        ∧ (Even (dimensions type) ↔ (r.resolve (core type)).kind.isParcelable = true)))
    ∧ (r.graph.isAssignable type r.parcelableBase = true
        ∧ (Even (dimensions type) ↔ (r.resolve (core type)).kind.isParcelable = true)
      → r.resolve type = .typed .parcelable (Text.trim type))
    ∧ (2 ≤ dimensions type →
      (r.resolve type = .fallback (Text.trim type)
        ↔ r.graph.isAssignable type r.parcelableBase = false))
    ∧ (r.graph.isAssignable type r.parcelableBase = true → '<' ∈ type)
  := by
  have h : parse type = .array (Text.trimEnd s) := by
    rw [parse_eq_array_iff]
    use s
  rw [← isParcelable_iff hg hbase h]
  constructor
  · apply array_or_fallback_iff h
  · constructor
    · apply resolve_of_isParcelable h
    · constructor
      · apply fallback_iff hg hbase h
      · apply openAngle_mem_of_isAssignable hg hbase h

end

/-- The framework types and a parcelable type that takes a type argument. -/
def boxes : Resolver :=
  ⟨TypeGraph.stock.insert (TypeGraph.declare "com.example.Box" none [TypeGraph.parcelableName]),
    TypeGraph.parcelableName⟩

theorem isAssignable_boxes {type : Text} (h : erasure type = ↑"com.example.Box") :
  boxes.graph.isAssignable type boxes.parcelableBase = true
  := by
  have hfind : boxes.graph.find? "com.example.Box"
      = some (TypeGraph.declare "com.example.Box" none [TypeGraph.parcelableName]) := by
    decide
  rw [← TypeGraph.isAssignable_congr (s := "com.example.Box") (Eq.symm h)]
  apply TypeGraph.isAssignable_of_mem_parents hfind
  decide

/-- An array of arrays of a parcelable type with a type argument is taken for a parcelable. -/
theorem resolve_boxes :
  boxes.graph.NamesAvoid '[' ∧ '[' ∉ erasure boxes.parcelableBase
    ∧ boxes.resolve "com.example.Box<String>[][]"
      = .typed .parcelable "com.example.Box<String>[][]"
    ∧ ¬ ((boxes.resolve "com.example.Box<String>[][]").kind ∈ CommandKind.arrays
      ∨ boxes.resolve "com.example.Box<String>[][]" = .fallback "com.example.Box<String>[][]")
  := by
  have hg : boxes.graph.NamesAvoid '[' := by
    apply (stock_namesAvoid (by decide)).insert
    decide
  have hbase : '[' ∉ erasure boxes.parcelableBase := by
    decide
  have houter : parse "com.example.Box<String>[][]" = .array "com.example.Box<String>[]" := by
    decide
  have hinner : parse "com.example.Box<String>[]" = .array "com.example.Box<String>" := by
    decide
  have hcore : parse "com.example.Box<String>" = .parameterized "com.example.Box" ["String"] := by
    decide
  have hzero : dimensions "com.example.Box<String>" = 0 := by
    rw [dimensions, peel_of_ne_array]
    rw [hcore]
    intro element h
    cases h
  have hparcelable : (boxes.resolve "com.example.Box<String>").kind.isParcelable = true := by
    have hmem : '<' ∈ Text.trim "com.example.Box<String>" := by
      decide
    have hbase : ¬ (("com.example.Box" : Text) = sparseArrayName
        ∧ (boxes.resolve "String").kind.isParcelable = true) := by
      rintro ⟨h, -⟩
      contradiction
    rw [resolve_of_mem boxes hmem (by decide), hcore, shapeCommand?, containerCommand?,
      if_neg (by decide), if_neg hbase, Option.getD_none, isParcelable_byAncestry]
    apply isAssignable_boxes
    decide
  have ha : boxes.graph.isAssignable "com.example.Box<String>[][]" boxes.parcelableBase = true := by
    apply isAssignable_boxes
    decide
  have heven : Even (dimensions "com.example.Box<String>[][]")
      ↔ (boxes.resolve (core "com.example.Box<String>[][]")).kind.isParcelable = true := by
    rw [dimensions_of_array houter, dimensions_of_array hinner, hzero, core_of_array houter,
      core_of_array hinner, core_of_dimensions_eq_zero hzero]
    apply iff_of_true (by decide) hparcelable
  have htrim : Text.trim "com.example.Box<String>[][]"
      = ↑"com.example.Box<String>[]" ++ ↑"[]" := by
    decide
  obtain ⟨hiff, hmistake, -, -⟩ := resolve_array_iff hg hbase htrim
  use hg, hbase, hmistake ⟨ha, heven⟩
  intro h
  apply hiff.1 h ⟨ha, heven⟩

end Resolver

end InstanceState
