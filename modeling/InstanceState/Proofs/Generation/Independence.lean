import InstanceState.Proofs.Generation.Outcome
import Mathlib.Algebra.GroupWithZero.Nat
import Mathlib.Data.List.Permutation

/-!
# Independence of owners

A batch comes to what it says of each owner: the order in which the fields of different owners
follow one another makes no difference but to the order of the diagnostics.  If the artifacts have
different names, then the owners can as well be given in batches of their own, in any order.
-/

namespace InstanceState

namespace Batch

/-! ### Fields of one owner after the other -/

theorem declaredBy_ne_nil_iff {fields : List Field} {owner : TypeName} :
  declaredBy fields owner ≠ [] ↔ ∃ f ∈ fields, f.owner = owner
  := by
  simp [declaredBy, List.filter_eq_nil_iff]

theorem declaredBy_filter_of_ne {owner other : TypeName} (h : other ≠ owner)
    (fields : List Field) :
  declaredBy (fields.filter fun f => !decide (f.owner = owner)) other = declaredBy fields other
  := by
  rw [declaredBy, declaredBy, List.filter_filter]
  apply List.filter_congr
  intro f _
  by_cases hf : f.owner = other
  · simp [hf, h]
  · simp [hf]

/-- The fields of all owners, one owner after the other, are those of the batch. -/
theorem flatMap_declaredBy_perm {order : List TypeName} (horder : order.Nodup)
    {fields : List Field} (h : ∀ f ∈ fields, f.owner ∈ order) :
  (order.flatMap (declaredBy fields)).Perm fields
  := by
  induction order generalizing fields with
  | nil =>
    have hnil : fields = [] := by
      apply List.eq_nil_iff_forall_not_mem.2
      intro f hf
      exact List.not_mem_nil (h f hf)
    rw [hnil]
    rfl
  | cons owner order ih =>
    obtain ⟨howner, horder⟩ := List.nodup_cons.1 horder
    -- the other owners declare the same without the fields of `owner`, to which `ih` applies
    have hothers : order.flatMap (declaredBy fields)
        = order.flatMap (declaredBy (fields.filter fun f => !decide (f.owner = owner))) := by
      apply List.flatMap_congr
      intro other hother
      symm
      apply declaredBy_filter_of_ne
      rintro rfl
      contradiction
    have hrest : ∀ f ∈ fields.filter fun f => !decide (f.owner = owner), f.owner ∈ order := by
      intro f hf
      rw [List.mem_filter, Bool.not_eq_true', decide_eq_false_iff_not] at hf
      apply (List.mem_cons.1 (h f hf.1)).resolve_left hf.2
    rw [List.flatMap_cons, hothers]
    apply ((ih horder hrest).append_left _).trans
    apply List.filter_append_perm

theorem flatMap_declaredBy_perm_of_perm {order : List TypeName} {fields : List Field}
    (horder : order.Perm (owners fields)) :
  (order.flatMap (declaredBy fields)).Perm fields
  := by
  apply flatMap_declaredBy_perm (horder.nodup_iff.2 (owners_nodup fields))
  intro f hf
  rw [horder.mem_iff, mem_owners_iff]
  use f, hf

/-! ### Batches that say the same of each owner -/

section Same

variable {fields fields' : List Field}
  (h : ∀ owner, declaredBy fields owner = declaredBy fields' owner)

include h

theorem owners_congr :
  owners fields = owners fields'
  := by
  apply owners_eq_of_mem_iff (ownerNames_pairwise fields')
  intro owner
  rw [mem_owners_iff, ← declaredBy_ne_nil_iff, ← h, declaredBy_ne_nil_iff]

theorem perm_of_declaredBy :
  fields.Perm fields'
  := by
  have hflatMap : (owners fields).flatMap (declaredBy fields)
      = (owners fields').flatMap (declaredBy fields') := by
    rw [owners_congr h]
    apply List.flatMap_congr
    intro owner _
    apply h
  apply (flatMap_declaredBy_perm_of_perm (.refl (owners fields))).symm.trans
  rw [hflatMap]
  apply flatMap_declaredBy_perm_of_perm (.refl (owners fields'))

theorem kept_congr :
  kept fields = kept fields'
  := by
  funext owner
  rw [kept, kept, h]

theorem package_congr :
  package fields = package fields'
  := by
  funext owner
  rw [package, package, h]

theorem published_congr :
  published fields = published fields'
  := by
  rw [published, published, owners_congr h, kept_congr h]

theorem skipped_congr :
  skipped fields = skipped fields'
  := by
  rw [skipped, skipped, owners_congr h, kept_congr h]

theorem rejected_perm :
  (rejected fields).Perm (rejected fields')
  := (perm_of_declaredBy h).filter _

end Same

/-! ### Batches of one owner -/

theorem declaredBy_self (fields : List Field) (owner : TypeName) :
  declaredBy (declaredBy fields owner) owner = declaredBy fields owner
  := by
  rw [declaredBy, List.filter_eq_self]
  intro f hf
  exact (List.mem_filter.1 hf).2

theorem owners_declaredBy {fields : List Field} {owner : TypeName} (h : owner ∈ owners fields) :
  owners (declaredBy fields owner) = [owner]
  := by
  apply owners_eq_of_mem_iff (List.pairwise_singleton _ _)
  intro other
  rw [List.mem_singleton]
  constructor
  · rintro rfl
    obtain ⟨f, hf, rfl⟩ := mem_owners_iff.1 h
    use f, List.mem_filter.2 ⟨hf, decide_eq_true rfl⟩
  · rintro ⟨f, hf, rfl⟩
    exact of_decide_eq_true (List.mem_filter.1 hf).2

theorem kept_self (fields : List Field) (owner : TypeName) :
  kept (declaredBy fields owner) owner = kept fields owner
  := by
  rw [kept, kept, declaredBy_self]

theorem package_self (fields : List Field) (owner : TypeName) :
  package (declaredBy fields owner) owner = package fields owner
  := by
  rw [package, package, declaredBy_self]

end Batch

namespace Generator

open Batch

variable (g : Generator)

/-! ### Runs of batches that say the same of each owner -/

section Same

variable {fields fields' : List Field}
  (h : ∀ owner, declaredBy fields owner = declaredBy fields' owner)

include h

theorem artifactOf_congr :
  g.artifactOf fields = g.artifactOf fields'
  := by
  funext owner
  rw [artifactOf, artifactOf, package_congr h]

theorem companionOf_congr :
  g.companionOf fields = g.companionOf fields'
  := by
  funext owner
  rw [companionOf, companionOf, package_congr h, kept_congr h]

theorem shelfOf_congr (shelf : Shelf) :
  g.shelfOf fields shelf = g.shelfOf fields' shelf
  := by
  rw [shelfOf, shelfOf, published_congr h, artifactOf_congr g h, companionOf_congr g h]

/-- The reports are the same but for the order of the diagnostics. -/
theorem reportOf_congr :
  g.reportOf fields
    = { g.reportOf fields' with diagnostics := (g.reportOf fields).diagnostics }
  := by
  rw [reportOf, reportOf, published_congr h, skipped_congr h, artifactOf_congr g h,
    (rejected_perm h).length_eq]

theorem diagnostics_perm :
  (g.reportOf fields).diagnostics.Perm (g.reportOf fields').diagnostics
  := (rejected_perm h).map _

end Same

/-! ### Runs of batches of one owner -/

/-- What an owner adds to the report of a batch. -/
def shareOf (fields : List Field) (owner : TypeName) : Report where
  written := if (kept fields owner).isEmpty then [] else [g.artifactOf fields owner]
  rejectedFields := (rejected (declaredBy fields owner)).length
  skippedGroups := if (kept fields owner).isEmpty then 1 else 0
  diagnostics := (rejected (declaredBy fields owner)).map fun f =>
    .ofFieldError ⟨f.owner, f.name, f.violations⟩

theorem artifactOf_self (fields : List Field) (owner : TypeName) :
  g.artifactOf (declaredBy fields owner) owner = g.artifactOf fields owner
  := by
  rw [artifactOf, artifactOf, package_self]

theorem companionOf_self (fields : List Field) (owner : TypeName) :
  g.companionOf (declaredBy fields owner) owner = g.companionOf fields owner
  := by
  rw [companionOf, companionOf, package_self, kept_self]

/-- A batch of one owner commits its companion, if the owner has a field to keep. -/
theorem run_generate_declaredBy {fields : List Field} {owner : TypeName}
    (h : owner ∈ owners fields) (shelf : Shelf) :
  (g.generate Shelf.reliable (declaredBy fields owner)).run shelf
    = (g.shareOf fields owner,
        if (!(kept fields owner).isEmpty) = true then g.commitOf fields shelf owner else shelf)
  := by
  rw [run_generate_reliable, reportOf, shelfOf, shareOf, published, skipped, owners_declaredBy h]
  cases hkept : (kept fields owner).isEmpty with
  | true => simp [kept_self, hkept]
  | false => simp [kept_self, hkept, artifactOf_self, companionOf_self, commitOf]

/-- Batches of one owner each commit the companions of the owners with a field to keep in turn. -/
theorem run_mapM_generate {fields : List Field} {order : List TypeName}
    (h : ∀ owner ∈ order, owner ∈ owners fields) (shelf : Shelf) :
  ((order.map (declaredBy fields)).mapM (g.generate Shelf.reliable)).run shelf
    = (order.map (g.shareOf fields),
        (order.filter fun owner => !(kept fields owner).isEmpty).foldl (g.commitOf fields) shelf)
  := by
  rw [List.mapM_map, List.foldl_filter]
  apply run_mapM_eq
  intro owner howner shelf
  apply g.run_generate_declaredBy (h owner howner)

/-! ### The shares of the owners -/

section Shares

variable (fields : List Field) (order : List TypeName)

theorem flatMap_written_shareOf :
  (order.map (g.shareOf fields)).flatMap Report.written
    = (order.filter fun owner => !(kept fields owner).isEmpty).map (g.artifactOf fields)
  := by
  induction order with
  | nil => rfl
  | cons owner order ih =>
    rw [List.map_cons, List.flatMap_cons, ih, shareOf, List.filter_cons]
    cases (kept fields owner).isEmpty with
    | true => rfl
    | false => rfl

theorem sum_skippedGroups_shareOf :
  ((order.map (g.shareOf fields)).map Report.skippedGroups).sum
    = (order.filter fun owner => (kept fields owner).isEmpty).length
  := by
  induction order with
  | nil => rfl
  | cons owner order ih =>
    rw [List.map_cons, List.map_cons, List.sum_cons, ih, shareOf, List.filter_cons]
    cases (kept fields owner).isEmpty with
    | true => apply Nat.add_comm
    | false => apply Nat.zero_add

theorem sum_failedGroups_shareOf :
  ((order.map (g.shareOf fields)).map Report.failedGroups).sum = 0
  := by
  induction order with
  | nil => rfl
  | cons owner order ih =>
    rw [List.map_cons, List.map_cons, List.sum_cons, ih]
    rfl

theorem flatMap_rejected_declaredBy :
  order.flatMap (fun owner => rejected (declaredBy fields owner))
    = rejected (order.flatMap (declaredBy fields))
  := by
  rw [rejected, List.filter_flatMap]
  rfl

theorem sum_rejectedFields_shareOf :
  ((order.map (g.shareOf fields)).map Report.rejectedFields).sum
    = (rejected (order.flatMap (declaredBy fields))).length
  := by
  rw [← flatMap_rejected_declaredBy, List.length_flatMap, List.map_map]
  rfl

theorem flatMap_diagnostics_shareOf :
  (order.map (g.shareOf fields)).flatMap Report.diagnostics
    = (rejected (order.flatMap (declaredBy fields))).map fun f =>
      .ofFieldError ⟨f.owner, f.name, f.violations⟩
  := by
  rw [← flatMap_rejected_declaredBy, List.map_flatMap, List.flatMap_map]
  rfl

end Shares

/-- Owners are independent of one another.  A batch that says the same of each owner, whatever the
order of the fields of different owners, ends in the same artifacts and the same report but for the
order of the diagnostics.  If the artifacts have different names, then batches of one owner each, in
any order of the owners, end in the same artifacts too, and their reports add up to that of the
batch. -/
theorem owners_independent (fields : List Field) (shelf : Shelf) :
  ∃ report shelf',
    (g.generate Shelf.reliable fields).run shelf = (report, shelf')
      ∧ (∀ fields', (∀ owner, declaredBy fields' owner = declaredBy fields owner) →
        ∃ diagnostics,
          (g.generate Shelf.reliable fields').run shelf = ({ report with diagnostics }, shelf')
            ∧ diagnostics.Perm report.diagnostics)
      ∧ (((published fields).map (g.artifactOf fields)).Nodup →
        ∀ order : List TypeName, order.Perm (owners fields) →
          ∃ reports,
            ((order.map (declaredBy fields)).mapM (g.generate Shelf.reliable)).run shelf
                = (reports, shelf')
              ∧ (reports.flatMap Report.written).Perm report.written
              ∧ (reports.map Report.rejectedFields).sum = report.rejectedFields
              ∧ (reports.map Report.failedGroups).sum = report.failedGroups
              ∧ (reports.map Report.skippedGroups).sum = report.skippedGroups
              ∧ (reports.flatMap Report.diagnostics).Perm report.diagnostics)
  := by
  use g.reportOf fields, g.shelfOf fields shelf, g.run_generate_reliable fields shelf
  constructor
  · intro fields' h
    use (g.reportOf fields').diagnostics
    rw [run_generate_reliable, ← reportOf_congr g h, shelfOf_congr g h]
    use rfl
    apply diagnostics_perm g h
  · intro hnodup order horder
    have hpublished : (order.filter fun owner => !(kept fields owner).isEmpty).Perm
        (published fields) := horder.filter _
    have hrejected : (rejected (order.flatMap (declaredBy fields))).Perm (rejected fields) :=
      (flatMap_declaredBy_perm_of_perm horder).filter _
    use order.map (g.shareOf fields)
    rw [run_mapM_generate g fun owner => horder.mem_iff.1, flatMap_written_shareOf,
      sum_rejectedFields_shareOf, sum_failedGroups_shareOf, sum_skippedGroups_shareOf,
      flatMap_diagnostics_shareOf]
    refine ⟨?_, hpublished.map _, hrejected.length_eq, rfl, ?_, hrejected.map _⟩
    · congr 1
      symm
      apply Roster.foldl_insert_perm (g.artifactOf fields)
        (fun owner => (g.companionOf fields owner).source) hpublished.symm hnodup
    · apply (horder.filter _).length_eq

/-- Fields of two owners, one of them private. -/
def duet : List Field :=
  [{ name := "x", declaredType := "int", owner := ⟨"A"⟩ },
   { name := "y", declaredType := "int", owner := ⟨"B"⟩ },
   { name := "z", declaredType := "int", owner := ⟨"A"⟩, modifiers := { isPrivate := true } }]

/-- The same fields, those of the second owner first. -/
def duetSwapped : List Field :=
  [{ name := "y", declaredType := "int", owner := ⟨"B"⟩ },
   { name := "x", declaredType := "int", owner := ⟨"A"⟩ },
   { name := "z", declaredType := "int", owner := ⟨"A"⟩, modifiers := { isPrivate := true } }]

/-- Either order, and a batch for each of the owners, end in the same artifacts. -/
theorem duet_independent :
  (∀ owner, declaredBy duetSwapped owner = declaredBy duet owner)
    ∧ ((published duet).map (artifactOf ⟨{}, .stock⟩ duet)).Nodup
    ∧ [⟨"B"⟩, ⟨"A"⟩].Perm (owners duet)
    ∧ ∃ report shelf reports,
      (generate ⟨{}, .stock⟩ Shelf.reliable duet).run .empty = (report, shelf)
        ∧ ((generate ⟨{}, .stock⟩ Shelf.reliable duetSwapped).run .empty).2 = shelf
        ∧ (([⟨"B"⟩, ⟨"A"⟩].map (declaredBy duet)).mapM
            (generate ⟨{}, .stock⟩ Shelf.reliable)).run .empty = (reports, shelf)
        ∧ (reports.flatMap Report.written).Perm report.written
  := by
  have hsame : ∀ owner, declaredBy duetSwapped owner = declaredBy duet owner := by
    intro owner
    by_cases hA : ⟨"A"⟩ = owner
    · subst hA
      decide
    · simp only [declaredBy, duet, duetSwapped, List.filter_cons, decide_eq_true_eq, if_neg hA]
  have hnodup : ((published duet).map (artifactOf ⟨{}, .stock⟩ duet)).Nodup := by
    apply nodup_artifacts
    decide
  have horder : [⟨"B"⟩, ⟨"A"⟩].Perm (owners duet) := by
    have howners : owners duet = [⟨"A"⟩, ⟨"B"⟩] := by
      cbv
    rw [howners]
    apply List.Perm.swap
  obtain ⟨report, shelf, hrun, hbatch, howners⟩ :=
    owners_independent ⟨{}, .stock⟩ duet .empty
  obtain ⟨diagnostics, hswapped, -⟩ := hbatch duetSwapped hsame
  obtain ⟨reports, hreports, hwritten, -⟩ := howners hnodup _ horder
  refine ⟨hsame, hnodup, horder, report, shelf, reports, hrun, ?_, hreports, hwritten⟩
  rw [hswapped]

end Generator

end InstanceState
