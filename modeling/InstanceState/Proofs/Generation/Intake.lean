import InstanceState.Proofs.Generation.Batch
import Mathlib.Data.List.Induction

/-!
# The intake of a batch

The groups of an intake are those of the owners of the batch, in order, and each is the group that
the batch makes up for its owner.  The invariant is said key by key: after any number of fields
the roster has a group under exactly the names of the owners that were seen.
-/

namespace InstanceState

open Batch

theorem Field.isValid_eq (f : Field) :
  f.isValid = isAccessible f
  := by
  rw [Bool.eq_iff_iff, isValid, List.isEmpty_iff, violations, List.filter_eq_nil_iff,
    isAccessible, List.all_eq_true]
  simp

namespace Generator

variable (g : Generator)

/-- The group that a batch makes up for an owner. -/
def groupOf (fields : List Field) (owner : TypeName) : Group where
  owner
  package := package fields owner
  fields := (kept fields owner).map g.save
  names := .ofNames ((kept fields owner).map Field.name)

/-! ### One more field -/

theorem groupOf_of_not_mem {fields : List Field} {owner : TypeName}
    (h : ∀ f ∈ fields, f.owner ≠ owner) :
  g.groupOf fields owner = .new owner
  := by
  have hnone : declaredBy fields owner = [] := by
    rw [declaredBy, List.filter_eq_nil_iff]
    intro f hf
    rw [decide_eq_true_eq]
    apply h f hf
  rw [groupOf, package, kept, hnone]
  rfl

theorem groupOf_append_of_ne {f : Field} {owner : TypeName} (h : f.owner ≠ owner)
    (fields : List Field) :
  g.groupOf (fields ++ [f]) owner = g.groupOf fields owner
  := by
  rw [groupOf, package, kept, declaredBy_append_of_ne h]
  rfl

theorem package_append_self (fields : List Field) (f : Field) :
  package (fields ++ [f]) f.owner = (package fields f.owner <|> f.package)
  := by
  rw [package, declaredBy_append_self, List.findSome?_append, package]
  simp

theorem kept_append_self (fields : List Field) (f : Field) :
  kept (fields ++ [f]) f.owner
    = if isAccessible f = true ∧ f.name ∉ (kept fields f.owner).map Field.name then
        kept fields f.owner ++ [f]
      else kept fields f.owner
  := by
  rw [kept, declaredBy_append_self, List.filter_append, List.filter_singleton]
  cases isAccessible f with
  | false =>
    rw [cond_false, List.append_nil, if_neg (fun h => Bool.false_ne_true h.1), kept]
  | true =>
    rw [cond_true, firstOfEachName_append, ← kept]
    by_cases hn : f.name ∈ (kept fields f.owner).map Field.name
    · rw [if_pos hn, if_neg (fun h => h.2 hn)]
    · rw [if_neg hn, if_pos ⟨rfl, hn⟩]

theorem accepts_groupOf (fields : List Field) (owner : TypeName) (name : Text) :
  (g.groupOf fields owner).accepts name = true ↔ name ∉ (kept fields owner).map Field.name
  := by
  rw [← Roster.find?_ofNames_isSome_iff, Bool.not_eq_true, Option.isSome_eq_false_iff]
  rfl

/-- A field declares its package, and is inserted if it is accessible. -/
theorem enroll_some (f : Field) (group : Group) :
  g.enroll f (some group)
    = if isAccessible f = true then (group.declarePackage f.package).insert (g.save f)
      else group.declarePackage f.package
  := by
  rw [enroll, Option.getD_some, f.isValid_eq]

/-- A field takes the group of its owner to that of the longer batch. -/
theorem enroll_groupOf (fields : List Field) (f : Field) :
  g.enroll f (some (g.groupOf fields f.owner)) = g.groupOf (fields ++ [f]) f.owner
  := by
  rw [enroll_some, groupOf.eq_def g (fields ++ [f]), package_append_self, kept_append_self]
  by_cases ha : isAccessible f = true
  · rw [if_pos ha, Group.insert]
    have haccepts : ((g.groupOf fields f.owner).declarePackage f.package).accepts (g.save f).name
          = true
        ↔ f.name ∉ (kept fields f.owner).map Field.name := g.accepts_groupOf fields f.owner f.name
    by_cases hn : f.name ∈ (kept fields f.owner).map Field.name
    · rw [if_neg (fun h => haccepts.1 h hn), if_neg (fun h => h.2 hn)]
      rfl
    · rw [if_pos (haccepts.2 hn), if_pos ⟨ha, hn⟩, List.map_append, List.map_append,
        List.map_singleton, List.map_singleton, Roster.ofNames_concat]
      rfl
  · rw [if_neg ha, if_neg (fun h => ha h.1)]
    rfl

/-! ### The whole batch -/

theorem collect_append (fields : List Field) (f : Field) :
  g.collect (fields ++ [f]) = g.receive (g.collect fields) f
  := by
  rw [collect, List.foldl_append]
  rfl

/-- After any number of fields there is a group under exactly the names of the owners that were
seen, and it is the one that the fields make up. -/
theorem find?_collect (fields : List Field) (owner : TypeName) :
  (g.collect fields).groups.find? owner.text
    = if ∃ f ∈ fields, f.owner = owner then some (g.groupOf fields owner) else none
  := by
  induction fields using List.reverseRecOn with
  | nil => simp [collect, Roster.empty, Roster.find?]
  | append_singleton fields f ih =>
    rw [collect_append, receive, Roster.find?_alter]
    by_cases ho : f.owner = owner
    · subst ho
      rw [if_pos rfl, if_pos ⟨f, by simp, rfl⟩, ih, ← enroll_groupOf]
      split_ifs with hseen
      · rfl
      · rw [groupOf_of_not_mem g (by simpa using hseen)]
        rfl
    · have hne : owner.text ≠ f.owner.text := by
        intro h
        apply ho
        apply TypeName.text_injective h.symm
      rw [if_neg hne, ih, groupOf_append_of_ne g ho]
      simp [ho]

theorem rejections_collect (fields : List Field) :
  (g.collect fields).rejections
    = (rejected fields).map fun f => ⟨f.owner, f.name, f.violations⟩
  := by
  induction fields using List.reverseRecOn with
  | nil => rfl
  | append_singleton fields f ih =>
    rw [collect_append, rejected, List.filter_append, List.map_append, ← rejected, ← ih]
    simp only [receive, FieldError.ofField?, f.isValid_eq, List.filter_singleton]
    cases isAccessible f <;> rfl

theorem keys_collect (fields : List Field) :
  (g.collect fields).groups.keys = ownerNames fields
  := by
  apply (g.collect fields).groups.keys_pairwise.eq_of_mem_iff (ownerNames_pairwise fields)
  intro name
  rw [Roster.mem_keys_iff, mem_ownerNames_iff, g.find?_collect fields ⟨name⟩]
  split_ifs with h
  · exact iff_of_true rfl h
  · exact iff_of_false Bool.false_ne_true h

/-- The groups are those of the owners, in order. -/
theorem groups_collect (fields : List Field) :
  (g.collect fields).groups.values = (owners fields).map (g.groupOf fields)
  := by
  rw [Roster.values_eq, keys_collect, ownerNames, List.filterMap_map, ← List.filterMap_eq_map]
  apply List.filterMap_congr
  intro owner ho
  rw [Function.comp_apply, find?_collect, if_pos (mem_owners_iff.1 ho), Function.comp_apply]

end Generator

end InstanceState
