import InstanceState.Proofs.Resolution.Shape
import InstanceState.Resolution.Rules

/-!
# One step of resolution

Resolution as two tables and, for a type that neither has, the command by its shape.  The names of
the tables are made of letters and dots, so a type with any other character gets its command by
its shape.
-/

namespace InstanceState

namespace Resolver

/-! ### Names in the tables -/

/-- Whether a character is used in the names of the tables. -/
def isTableChar (c : Char) : Bool := c.isAlpha || c = '.'

theorem mem_of_lookup_eq_some {α : Type} {table : List (Text × α)} {name : Text} {a : α}
    (h : table.lookup name = some a) :
  (name, a) ∈ table
  := by
  obtain ⟨before, after, rfl, -⟩ := List.lookup_eq_some_iff.1 h
  simp

/-- A scalar type has a name of the table, with the package or without it. -/
theorem exists_mem_scalarTable {u : Text} {kind : CommandKind} (h : scalarKind? u = some kind) :
  ∃ entry ∈ scalarTable, entry.2 = kind ∧ u ∈ [entry.1, "java.lang." ++ entry.1]
  := by
  rw [scalarKind?] at h
  refine ⟨_, mem_of_lookup_eq_some h, rfl, ?_⟩
  cases hafter : Text.after? "java.lang." u with
  | none => apply List.mem_cons_self
  | some rest =>
    apply List.mem_cons_of_mem
    rw [List.mem_singleton]
    apply Text.after?_eq_some_iff.1 hafter

/-- A framework value type is the bundle or a name of the table. -/
theorem frameworkCommand?_cases {type : Text} {command : Command}
    (h : frameworkCommand? type = some command) :
  (type = ↑"android.os.Bundle" ∧ command = .plain .bundle)
    ∨ ∃ kind, (type, kind) ∈ geometryTable ∧ command = .typed kind type
  := by
  rw [frameworkCommand?] at h
  split at h
  · rename_i hbundle
    left
    cases h
    use hbundle
  · right
    obtain ⟨kind, hkind, rfl⟩ := Option.map_eq_some_iff.1 h
    use kind, mem_of_lookup_eq_some hkind

theorem isTableChar_of_scalarKind? {type : Text} {kind : CommandKind}
    (h : scalarKind? type = some kind) :
  type.all isTableChar = true
  := by
  have htable : ∀ entry ∈ scalarTable, ∀ name ∈ [entry.1, "java.lang." ++ entry.1],
      name.all isTableChar = true := by
    decide
  obtain ⟨entry, hentry, -, hname⟩ := exists_mem_scalarTable h
  apply htable entry hentry type hname

theorem isTableChar_of_frameworkCommand? {type : Text} {command : Command}
    (h : frameworkCommand? type = some command) :
  type.all isTableChar = true
  := by
  have htable : ∀ entry ∈ geometryTable, entry.1.all isTableChar = true := by
    decide
  rcases frameworkCommand?_cases h with ⟨rfl, -⟩ | ⟨kind, hkind, -⟩
  · decide
  · apply htable _ hkind

theorem scalarKind?_eq_none {type : Text} {c : Char} (hc : c ∈ type)
    (h : isTableChar c = false) :
  scalarKind? type = none
  := by
  rw [Option.eq_none_iff_forall_ne_some]
  intro kind hkind
  rw [List.all_eq_true.1 (isTableChar_of_scalarKind? hkind) c hc] at h
  contradiction

theorem frameworkCommand?_eq_none {type : Text} {c : Char} (hc : c ∈ type)
    (h : isTableChar c = false) :
  frameworkCommand? type = none
  := by
  rw [Option.eq_none_iff_forall_ne_some]
  intro command hcommand
  rw [List.all_eq_true.1 (isTableChar_of_frameworkCommand? hcommand) c hc] at h
  contradiction

/-- The names of the framework types use no other characters either. -/
theorem stock_namesAvoid {c : Char} (h : isTableChar c = false) :
  TypeGraph.stock.NamesAvoid c
  := by
  have hstock : ∀ d ∈ TypeGraph.stock.declarations, d.name.text.all isTableChar = true := by
    decide
  intro d hd hc
  rw [List.all_eq_true.1 (hstock d hd) c hc] at h
  contradiction

/-! ### The rules on shapes -/

/-- The command of an array type by its element and the kind of the element, if there is one. -/
def arrayCommand? (element : Text) (kind : CommandKind) : Option Command :=
  match (arrayElementKind? element).bind CommandKind.arrayOf? with
  | some array => some (.plain array)
  | none => if kind.isParcelable then some (.typed .parcelableArray element) else none

/-- The command of a type with one argument by its base, the argument and the kind of the argument,
if there is one. -/
def containerCommand? (base element : Text) (kind : CommandKind) : Option Command :=
  if base = arrayListName then listCommand? element kind
  else if base = sparseArrayName ∧ kind.isParcelable then
    some (.typed .sparseParcelableArray element)
  else none

variable (r : Resolver)

/-- The command that the ancestry of a name gives a type of the given text. -/
def ancestryCommand (name text : Text) : Command :=
  if r.graph.isAssignable name r.parcelableBase then .typed .parcelable text else .fallback text

/-- The command by the shape of a type, if there is one. -/
def shapeCommand? : TypeShape → Option Command
  | .array element => arrayCommand? element (r.resolve element).kind
  | .parameterized base [element] => containerCommand? base element (r.resolve element).kind
  | _ => none

/-- Resolution is the first of four rules: two tables, the shape and the ancestry. -/
theorem resolve_eq (type : Text) :
  r.resolve type
    = match scalarKind? (Text.trim type) with
      | some kind => .plain kind
      | none =>
        ((frameworkCommand? (Text.trim type)).or (r.shapeCommand? (.parse type))).getD
          (r.byAncestry (Text.trim type))
  := by
  rw [resolve]
  cases scalarKind? (Text.trim type) with
  | some kind => rfl
  | none =>
    cases frameworkCommand? (Text.trim type) with
    | some command => rfl
    | none =>
      dsimp only
      rw [Option.none_or]
      split
      · rename_i element hshape
        rw [hshape, shapeCommand?, arrayCommand?]
        cases (arrayElementKind? element).bind CommandKind.arrayOf? with
        | some kind => rfl
        | none => split_ifs <;> rfl
      · rename_i base element hshape
        rw [hshape, shapeCommand?, containerCommand?]
        split_ifs <;> rfl
      · rename_i harray hsingle
        have hnone : r.shapeCommand? (.parse type) = none := by
          rw [shapeCommand?.eq_3 r _ harray hsingle]
        rw [hnone]
        rfl

/-- The command of a type is that of one of the tables, of its shape or of its ancestry. -/
theorem resolve_cases (type : Text) :
  (∃ kind, scalarKind? (Text.trim type) = some kind ∧ r.resolve type = .plain kind)
    ∨ frameworkCommand? (Text.trim type) = some (r.resolve type)
    ∨ (∃ element, TypeShape.parse type = .array element
      ∧ arrayCommand? element (r.resolve element).kind = some (r.resolve type))
    ∨ (∃ base element, TypeShape.parse type = .parameterized base [element]
      ∧ containerCommand? base element (r.resolve element).kind = some (r.resolve type))
    ∨ r.resolve type = .typed .parcelable (Text.trim type)
    ∨ r.resolve type = .fallback (Text.trim type)
  := by
  have h := r.resolve_eq type
  generalize r.resolve type = command at h ⊢
  subst h
  cases scalarKind? (Text.trim type) with
  | some kind =>
    left
    use kind
  | none =>
    right
    cases frameworkCommand? (Text.trim type) with
    | some command =>
      left
      rfl
    | none =>
      right
      dsimp only
      rw [Option.none_or]
      cases hshape : r.shapeCommand? (.parse type) with
      | some command =>
        rw [shapeCommand?.eq_def] at hshape
        split at hshape
        · rename_i element hparse
          left
          use element, hparse, hshape
        · rename_i base element hparse
          right
          left
          use base, element, hparse, hshape
        · contradiction
      | none =>
        right
        right
        rw [Option.getD_none, byAncestry]
        split_ifs
        · left
          rfl
        · right
          rfl

theorem resolve_trim (type : Text) :
  r.resolve (Text.trim type) = r.resolve type
  := by
  rw [resolve_eq, resolve_eq, Text.trim_trim, TypeShape.parse_trim]

/-- A type with a character that the tables do not use gets its command by its shape. -/
theorem resolve_of_mem {type : Text} {c : Char} (hc : c ∈ Text.trim type)
    (h : isTableChar c = false) :
  r.resolve type = (r.shapeCommand? (.parse type)).getD (r.byAncestry (Text.trim type))
  := by
  rw [resolve_eq, scalarKind?_eq_none hc h, frameworkCommand?_eq_none hc h]
  rfl

end Resolver

end InstanceState
