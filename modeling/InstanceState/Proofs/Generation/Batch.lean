import InstanceState.Generation.Basic
import InstanceState.Proofs.Roster
import InstanceState.Proofs.Text.Octets
import Mathlib.Data.List.Dedup
import Mathlib.Data.List.Nodup
import Mathlib.Data.List.Sort

/-!
# Batches by owner

What a batch says about each of its owners, read off the whole list of fields: the owners in order,
the fields that the companion of an owner keeps, the package of an owner, and the group that
these make up.  The intake, which takes in one field at a time, ends in exactly these groups.
-/

namespace InstanceState

/-- A type name is told by its text. -/
theorem TypeName.text_injective :
  Function.Injective TypeName.text
  := by
  rintro ⟨t⟩ ⟨t'⟩ rfl
  rfl

namespace Batch

/-! ### Owners and their fields -/

/-- The owners of the fields, each once, in increasing order of their names. -/
def owners (fields : List Field) : List TypeName :=
  ((fields.map fun f => f.owner.text).dedup.mergeSort fun s t => !decide (t < s)).map .mk

/-- The fields that an owner declares. -/
def declaredBy (fields : List Field) (owner : TypeName) : List Field :=
  fields.filter fun f => f.owner = owner

/-- Whether a field has none of the forbidden modifiers. -/
def isAccessible (f : Field) : Bool := Modifier.forbidden.all fun m => !f.modifiers.has m

/-- The fields that are the first of their name. -/
def firstOfEachName : List Field → List Field
  | [] => []
  | f :: fs => f :: (firstOfEachName fs).filter fun f' => f'.name ≠ f.name

/-- The fields that the companion of an owner keeps. -/
def kept (fields : List Field) (owner : TypeName) : List Field :=
  firstOfEachName ((declaredBy fields owner).filter isAccessible)

/-- The first package that a field of the owner declares, whether the field is kept or not. -/
def package (fields : List Field) (owner : TypeName) : Option Text :=
  (declaredBy fields owner).findSome? Field.package

/-- The owners with a field to keep. -/
def published (fields : List Field) : List TypeName :=
  (owners fields).filter fun owner => !(kept fields owner).isEmpty

/-- The owners without a field to keep. -/
def skipped (fields : List Field) : List TypeName :=
  (owners fields).filter fun owner => (kept fields owner).isEmpty

/-- The fields with a forbidden modifier. -/
def rejected (fields : List Field) : List Field := fields.filter fun f => !isAccessible f

/-- The names of the owners, in order. -/
def ownerNames (fields : List Field) : List Text := (owners fields).map TypeName.text

theorem ownerNames_eq (fields : List Field) :
  ownerNames fields
    = (fields.map fun f => f.owner.text).dedup.mergeSort fun s t => !decide (t < s)
  := by
  rw [ownerNames, owners, List.map_map]
  apply List.map_id

theorem mem_ownerNames_iff {fields : List Field} {name : Text} :
  name ∈ ownerNames fields ↔ ∃ f ∈ fields, f.owner = ⟨name⟩
  := by
  rw [ownerNames_eq, List.mem_mergeSort, List.mem_dedup, List.mem_map]
  constructor
  · rintro ⟨f, hf, rfl⟩
    use f, hf
  · rintro ⟨f, hf, h⟩
    use f, hf
    rw [h]

theorem mem_owners_iff {fields : List Field} {owner : TypeName} :
  owner ∈ owners fields ↔ ∃ f ∈ fields, f.owner = owner
  := by
  rw [← mem_ownerNames_iff, ownerNames, List.mem_map]
  constructor
  · intro h
    use owner, h
  · rintro ⟨owner', h, h'⟩
    cases owner
    cases owner'
    cases h'
    exact h

theorem ownerNames_pairwise (fields : List Field) :
  (ownerNames fields).Pairwise (· < ·)
  := by
  rw [ownerNames_eq]
  have hsorted := @List.pairwise_mergeSort _ (fun s t : Text => !decide (t < s))
    (by
      intro s t u hst htu
      simp only [Bool.not_eq_true', decide_eq_false_iff_not, List.not_lt] at hst htu ⊢
      apply List.le_trans hst htu)
    (by
      intro s t
      simp only [Bool.or_eq_true, Bool.not_eq_true', decide_eq_false_iff_not, List.not_lt]
      apply List.le_total)
    (fields.map fun f => f.owner.text).dedup
  have hnodup := (List.mergeSort_perm (fields.map fun f => f.owner.text).dedup
    fun s t => !decide (t < s)).nodup_iff.2 (List.nodup_dedup _)
  apply (hsorted.and hnodup).imp
  rintro s t ⟨hle, hne⟩
  simp only [Bool.not_eq_true', decide_eq_false_iff_not, List.not_lt] at hle
  apply (List.le_iff_lt_or_eq.1 hle).resolve_right hne

/-- The octets of the owners' names increase. -/
theorem owners_pairwise (fields : List Field) :
  (owners fields).Pairwise fun a b => Utf8.encode a.text < Utf8.encode b.text
  := by
  apply (List.pairwise_map.1 (ownerNames_pairwise fields)).imp
  intro a b h
  apply Utf8.encode_lt_iff.2 h

theorem owners_nodup (fields : List Field) :
  (owners fields).Nodup
  := by
  apply (owners_pairwise fields).imp
  rintro a b h rfl
  apply List.lt_irrefl _ h

/-- The owners are the different ones of the fields. -/
theorem owners_perm (fields : List Field) :
  (owners fields).Perm (fields.map Field.owner).dedup
  := by
  rw [List.perm_ext_iff_of_nodup (owners_nodup fields) (List.nodup_dedup _)]
  intro owner
  rw [mem_owners_iff, List.mem_dedup, List.mem_map]

/-- The owners are told by their order and by whether a field has them. -/
theorem owners_eq_of_mem_iff {fields : List Field} {l : List TypeName}
    (hl : (l.map TypeName.text).Pairwise (· < ·))
    (h : ∀ owner, owner ∈ l ↔ ∃ f ∈ fields, f.owner = owner) :
  owners fields = l
  := by
  apply List.map_injective_iff.2 TypeName.text_injective
  apply (ownerNames_pairwise fields).eq_of_mem_iff hl
  intro name
  rw [mem_ownerNames_iff, ← h]
  exact (List.mem_map_of_injective TypeName.text_injective).symm

theorem firstOfEachName_eq_nil_iff {fs : List Field} :
  firstOfEachName fs = [] ↔ fs = []
  := by
  cases fs with
  | nil => simp [firstOfEachName]
  | cons f fs => simp [firstOfEachName]

theorem mem_published_iff {fields : List Field} {owner : TypeName} :
  owner ∈ published fields ↔ ∃ f ∈ fields, f.owner = owner ∧ isAccessible f = true
  := by
  have hkept : (kept fields owner).isEmpty = false
      ↔ ∃ f ∈ fields, f.owner = owner ∧ isAccessible f = true := by
    rw [← Bool.not_eq_true, List.isEmpty_iff, kept, firstOfEachName_eq_nil_iff, declaredBy]
    simp [List.filter_eq_nil_iff, and_comm]
  rw [published, List.mem_filter, Bool.not_eq_true', hkept, mem_owners_iff]
  constructor
  · rintro ⟨-, h⟩
    exact h
  · rintro ⟨f, hf, ho, ha⟩
    use ⟨f, hf, ho⟩, f, hf, ho

theorem published_pairwise (fields : List Field) :
  (published fields).Pairwise fun a b => Utf8.encode a.text < Utf8.encode b.text
  := (owners_pairwise fields).filter _

theorem published_nodup (fields : List Field) :
  (published fields).Nodup
  := (owners_nodup fields).filter _

theorem length_published_add (fields : List Field) :
  (published fields).length + (skipped fields).length = (owners fields).length
  := by
  rw [Nat.add_comm]
  symm
  apply List.length_eq_length_filter_add

/-! ### One more field -/

theorem declaredBy_append_self (fields : List Field) (f : Field) :
  declaredBy (fields ++ [f]) f.owner = declaredBy fields f.owner ++ [f]
  := by
  simp [declaredBy]

theorem declaredBy_append_of_ne {f : Field} {owner : TypeName} (h : f.owner ≠ owner)
    (fields : List Field) :
  declaredBy (fields ++ [f]) owner = declaredBy fields owner
  := by
  simp [declaredBy, h]

theorem mem_names_filter_ne {n m : Text} (h : n ≠ m) (fs : List Field) :
  n ∈ (fs.filter fun f => f.name ≠ m).map Field.name ↔ n ∈ fs.map Field.name
  := by
  simp only [List.mem_map, List.mem_filter, decide_eq_true_eq]
  constructor
  · rintro ⟨f, ⟨hf, -⟩, rfl⟩
    use f, hf
  · rintro ⟨f, hf, rfl⟩
    use f, ⟨hf, h⟩

theorem firstOfEachName_append (fs : List Field) (f : Field) :
  firstOfEachName (fs ++ [f])
    = if f.name ∈ (firstOfEachName fs).map Field.name then firstOfEachName fs
      else firstOfEachName fs ++ [f]
  := by
  induction fs with
  | nil => simp [firstOfEachName]
  | cons d fs ih =>
    rw [List.cons_append, firstOfEachName, firstOfEachName, ih]
    simp only [List.map_cons, List.mem_cons]
    by_cases hd : f.name = d.name
    · simp only [hd, true_or, if_true]
      split_ifs
      · rfl
      · simp [hd]
    · simp only [mem_names_filter_ne hd, hd, false_or]
      split_ifs
      · rfl
      · simp [hd]

end Batch

end InstanceState
