import InstanceState.Proofs.Source.Execution
import InstanceState.Proofs.Source.FieldLines

/-!
# Saving and restoring agree

The two methods of a companion treat the same fields in the same order, each under one key and by
accessors of one name, whatever the family.  So the restoring method reads back what the saving
method stored.
-/

namespace InstanceState

open SourceStep

/-- Whether a statement stores a field. -/
def Statement.storesField : Statement → Bool
  | storeField .. => true
  | _ => false

/-- Whether a statement reads a field back. -/
def Statement.fetchesField : Statement → Bool
  | fetchField .. => true
  | _ => false

namespace Companion

theorem filter_fields {p : Statement → Bool} {stmt : SavedField → Statement}
    {opening closing : List Statement} (hstmt : ∀ f, p (stmt f) = true)
    (hopening : opening.filter p = []) (hclosing : closing.filter p = [])
    (fields : List SavedField) :
  (opening ++ fields.map stmt ++ closing).filter p = fields.map stmt
  := by
  have hfields : (fields.map stmt).filter p = fields.map stmt := by
    apply List.filter_eq_self.2
    intro s hs
    obtain ⟨f, -, rfl⟩ := List.mem_map.1 hs
    apply hstmt
  rw [List.filter_append, List.filter_append, hopening, hclosing, hfields, List.nil_append,
    List.append_nil]

/-- In either family the saving method stores the fields in their order, and no other. -/
theorem filter_saveBody (c : Companion) (family : Family) :
  ({ c with family := family } : Companion).saveBody.filter Statement.storesField
    = c.fields.map c.storeOf
  := by
  apply filter_fields fun _ => rfl
  · cases family <;> rfl
  · cases family <;> rfl

/-- In either family the restoring method reads the fields back in their order, and no other. -/
theorem filter_restoreBody (c : Companion) (family : Family) :
  ({ c with family := family } : Companion).restoreBody.filter Statement.fetchesField
    = c.fields.map c.fetchOf
  := by
  apply filter_fields fun _ => rfl
  · cases family <;> rfl
  · cases family <;> rfl

theorem nodup_keyUnits {c : Companion} (hnames : (c.fields.map SavedField.name).Nodup) :
  (c.fields.map c.keyUnits).Nodup
  := by
  apply (List.Nodup.of_map _ hnames).map_on
  intro f hf f' hf' hunits
  apply List.inj_on_of_nodup_map hnames hf hf' (keyUnits_inj hunits)

/-- The constants are declared before the methods. -/
theorem constants_subset_openingLines (c : Companion) :
  ∀ line ∈ c.constants, margin 1 ++ line ∈ c.openingLines
  := by
  intro line hline
  have hne : ¬ c.constants.isEmpty = true := by
    intro hempty
    rw [List.isEmpty_iff.1 hempty] at hline
    contradiction
  rw [openingLines, sourceLines_append_of_isBalanced c.isBalanced_preamble, sourceLines, depthAfter,
    constantSteps, if_neg hne, sourceLines_append_of_isBalanced (isBalanced_lines _),
    sourceLines_map_line]
  apply List.mem_append_right
  apply List.mem_cons_of_mem
  apply List.mem_append_left
  apply List.mem_map_of_mem hline

/-- The source text of a companion with different field names is cut into the lines of two methods.
In either family the fields are stored, and read back, in their order and each by one line; the two
lines of a field have one key expression and one accessor.  The key expressions denote different
strings.  What was saved is restored into any other target, and a view returns the state of its
parent class if no key of a field is the key of that state. -/
theorem save_restore_agree (c : Companion) (hflat : c.IsFlat)
    (hnames : (c.fields.map SavedField.name).Nodup) :
  Text.pieces '\n' c.source
      = c.openingLines ++ methodLines c.saveSignature c.saveBody ++ [[]]
        ++ methodLines c.restoreSignature c.restoreBody ++ [['\x7d'], []]
    ∧ (∀ family, ({ c with family := family } : Companion).saveBody.filter Statement.storesField
          = c.fields.map c.storeOf
        ∧ ({ c with family := family } : Companion).restoreBody.filter Statement.fetchesField
          = c.fields.map c.fetchOf)
    ∧ (∀ f ∈ c.fields,
        (methodLines c.saveSignature c.saveBody).count
          (margin 2 ++ ("outState.put" ++ f.command.kind.accessor ++ "(" ++ c.keyExpression f.name
            ++ ", target." ++ f.name ++ ");")) = 1
        ∧ (methodLines c.restoreSignature c.restoreBody).count
          (margin 2 ++ ("target." ++ f.name ++ " = " ++ f.command.castText ++ "savedInstanceState."
            ++ f.command.witnessText ++ "get" ++ f.command.kind.accessor ++ "("
            ++ c.keyExpression f.name ++ ");")) = 1
        ∧ (f.command.castText = [] ∨ f.command.witnessText = []))
    ∧ (∀ line ∈ c.constants, margin 1 ++ line ∈ c.openingLines)
    ∧ (∀ f ∈ c.fields, expressionValue? c.constants (c.keyExpression f.name) = some (c.keyUnits f))
    ∧ (c.fields.map c.keyUnits).Nodup
    ∧ ∀ (β ν : Type) (bundles : Bundles β ν) (target fresh : Text → ν) (given : ν),
        (c.family = .host → (bundles.bundle? given).isSome) →
          ∃ value, (c.save bundles target given).bind (c.restore bundles fresh)
              = some (fun name =>
                if name ∈ c.fields.map SavedField.name then target name else fresh name, value)
            ∧ (c.family = .view → (∀ f ∈ c.fields, c.key f.name ≠ c.superKey) → value = some given)
  := by
  refine ⟨pieces_source hflat, ?_, ?_, c.constants_subset_openingLines, ?_, nodup_keyUnits hnames,
    ?_⟩
  · intro family
    exact ⟨c.filter_saveBody family, c.filter_restoreBody family⟩
  · intro f hf
    have hstore := SourceStep.line.inj (List.cons.inj (c.saveStatement_eq f)).1
    have hfetch := SourceStep.line.inj (List.cons.inj (c.restoreStatement_eq f)).1
    refine ⟨?_, ?_, f.command.castText_or_witnessText⟩
    · exact hstore ▸ count_saveLines hnames hf
    · exact hfetch ▸ count_restoreLines hnames hf
  · intro f _
    apply expressionValue?_keyExpression
  · intro β ν bundles target fresh given hgiven
    obtain ⟨b, hopened⟩ : ∃ b, c.opened? bundles given = some b := by
      rw [opened?]
      cases hfamily : c.family with
      | host => exact Option.isSome_iff_exists.1 (hgiven hfamily)
      | view => exact ⟨_, rfl⟩
    refine ⟨_, restore_save hnames hopened target fresh, ?_⟩
    intro hfamily hkeys
    apply returned?_stored_of_ne hfamily hkeys hopened

end Companion

/-! ### Bundles as association lists -/

/-- A stored value: nothing, a number, or a bundle. -/
inductive Parcel where
  | null
  | number (n : Nat)
  | bundle (entries : List (Units × Text × Parcel))

/-- What an entry gives to an accessor: nothing, unless it was stored by the same one. -/
def Parcel.given (accessor : Text) : Option (Text × Parcel) → Parcel
  | some (stored, v) => if accessor = stored then v else null
  | none => null

/-- Bundles that keep what was stored last first. -/
def parcels : Bundles (List (Units × Text × Parcel)) Parcel where
  empty := []
  put accessor key v entries := (key, accessor, v) :: entries
  get accessor key entries := Parcel.given accessor (entries.lookup key)
  ofBundle := .bundle
  bundle?
    | .bundle entries => some entries
    | _ => none
  bundle?_ofBundle _ := rfl
  get_put_self accessor key v entries := by
    rw [List.lookup_cons_self, Parcel.given, if_pos rfl]
  get_put_of_ne accessor accessor' key key' v entries h := by
    rw [List.lookup_cons, beq_eq_false_iff_ne.2 h]

/-- A view with a parcelable field and a number, whose keys begin with its name. -/
def counterView : Companion where
  layout := TypeName.layout ⟨"com.example.CounterView"⟩ none
  suffix := "$$Icicle"
  namespaceKeys := true
  family := .view
  fields :=
    [⟨⟨"bounds", "android.graphics.Rect", ⟨"com.example.CounterView"⟩, none, {}⟩,
      .typed .rect "android.graphics.Rect"⟩,
     ⟨⟨"count", "int", ⟨"com.example.CounterView"⟩, none, {}⟩, .plain .int⟩]

theorem isFlat_counterView :
  counterView.IsFlat
  := by
  have hname : '\n' ∉ ("com.example.CounterView" : Text) := by
    decide
  exact ⟨TypeName.isFlat_layout hname none, by decide, by decide, by decide⟩

theorem counterView_agrees :
  counterView.IsFlat ∧ (counterView.fields.map SavedField.name).Nodup
    ∧ (counterView.family = .host → (parcels.bundle? .null).isSome)
    ∧ (∀ f ∈ counterView.fields, counterView.key f.name ≠ counterView.superKey)
    ∧ counterView.saveLines.count
        ("    outState.putParcelable(BASE_KEY + \"bounds\", target.bounds);" : Text) = 1
    ∧ (counterView.save parcels (fun _ => .number 7) .null).bind
        (counterView.restore parcels fun _ => .null)
      = some (fun name =>
          if name ∈ (["bounds", "count"] : List Text) then .number 7 else .null, some .null)
  := by
  have hnames : (counterView.fields.map SavedField.name).Nodup := by
    decide
  have hgiven : counterView.family = .host → (parcels.bundle? .null).isSome := by
    intro h
    cases h
  have hkeys : ∀ f ∈ counterView.fields, counterView.key f.name ≠ counterView.superKey := by
    decide
  obtain ⟨-, -, hlines, -, -, -, hrun⟩ := counterView.save_restore_agree isFlat_counterView hnames
  obtain ⟨hline, -⟩ := hlines _ List.mem_cons_self
  obtain ⟨value, hrestored, hvalue⟩ :=
    hrun _ _ parcels (fun _ => .number 7) (fun _ => .null) .null hgiven
  rw [hvalue rfl hkeys] at hrestored
  exact ⟨isFlat_counterView, hnames, hgiven, hkeys, hline, hrestored⟩

end InstanceState
