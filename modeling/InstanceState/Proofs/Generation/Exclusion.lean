import InstanceState.Proofs.Generation.Accounts
import InstanceState.Proofs.Generation.Protocol
import InstanceState.Proofs.Source.FieldLines

/-!
# Exclusion of fields

The companion of an owner has a statement for a name exactly if the batch has a field of that owner
and name without a forbidden modifier.  A field with one is reported in any case.  So a reported
field is excluded exactly if no other field of its owner and name is accessible: what is reported is
one field, and what the companion saves goes by names.
-/

namespace InstanceState

open Batch

/-! ### Statements for a name -/

/-- The lines of the two methods of a family, apart from those of the fields. -/
def Lifecycle.bodyLines (l : Lifecycle) : List Text :=
  l.savePrologue ++ l.saveEpilogue ++ l.guardExit :: l.restorePrologue ++ l.restoreEpilogue

namespace Companion

variable {c : Companion}

/-- Whether a companion has a statement that stores a field of the given name, or one that reads it
back. -/
def HasStatementFor (c : Companion) (name : Text) : Prop :=
  ∃ f : SavedField, f.name = name
    ∧ (.line (c.saveStatement f) ∈ c.steps ∨ .line (c.restoreStatement f) ∈ c.steps)

theorem line_mem_block_iff {opening text : Text} {body : List SourceStep} :
  .line text ∈ block opening body ↔ .line text ∈ body
  := by
  simp [block]

theorem line_mem_map_line_iff {text : Text} {texts : List Text} :
  SourceStep.line text ∈ texts.map .line ↔ text ∈ texts
  := by
  simp

/-- What stands outside of the methods begins with neither of the letters with which the statements
for fields begin. -/
theorem line_not_mem_outside {text : Text} (h : text.head? = some 'o' ∨ text.head? = some 't') :
  .line text ∉ c.preamble ∧ .line text ∉ c.constantSteps
  := by
  constructor
  · intro hmem
    simp only [preamble, List.cons_append, List.mem_cons, List.mem_append, List.mem_map,
      SourceStep.line.injEq, reduceCtorEq, List.not_mem_nil, or_false, false_or] at hmem
    rcases hmem with rfl | ⟨package, -, rfl⟩ | ⟨name, -, rfl⟩ <;> rcases h with h | h <;> cases h
  · intro hmem
    rw [constantSteps] at hmem
    split at hmem
    · contradiction
    · rw [List.mem_append, line_mem_map_line_iff, constants, List.mem_append] at hmem
      have hconstant : ∀ name value, constant name value ≠ text := by
        rintro name value rfl
        rcases h with h | h <;> cases h
      rcases hmem with (hmem | hmem) | hmem
      · split at hmem
        · exact hconstant _ _ (List.mem_singleton.1 hmem).symm
        · contradiction
      · split at hmem
        · exact hconstant _ _ (List.mem_singleton.1 hmem).symm
        · contradiction
      · contradiction

theorem line_mem_steps_iff {text : Text} (h : text.head? = some 'o' ∨ text.head? = some 't') :
  .line text ∈ c.steps
    ↔ text ∈ c.fields.map c.saveStatement ∨ text ∈ c.fields.map c.restoreStatement
      ∨ text ∈ c.lifecycle.bodyLines
  := by
  obtain ⟨hpreamble, hconstants⟩ := line_not_mem_outside (c := c) h
  have hsave : .line text ∈ c.saveMethod
      ↔ text ∈ c.fields.map c.saveStatement
        ∨ text ∈ c.lifecycle.savePrologue ++ c.lifecycle.saveEpilogue := by
    rw [saveMethod, line_mem_block_iff, line_mem_map_line_iff, List.mem_append, List.mem_append,
      List.mem_append, or_comm (a := text ∈ c.lifecycle.savePrologue), or_assoc]
  have hrestore : .line text ∈ c.restoreMethod
      ↔ text ∈ c.fields.map c.restoreStatement
        ∨ text ∈ c.lifecycle.guardExit :: c.lifecycle.restorePrologue
          ++ c.lifecycle.restoreEpilogue := by
    rw [restoreMethod, line_mem_block_iff, List.mem_append, line_mem_block_iff,
      List.mem_singleton, line_mem_map_line_iff, SourceStep.line.injEq, List.mem_append,
      List.mem_append, List.mem_append, List.mem_cons, ← or_assoc, ← or_assoc,
      or_comm (b := text ∈ c.fields.map c.restoreStatement), or_assoc]
  have hbody : text ∈ c.lifecycle.bodyLines
      ↔ text ∈ c.lifecycle.savePrologue ++ c.lifecycle.saveEpilogue
        ∨ text ∈ c.lifecycle.guardExit :: c.lifecycle.restorePrologue
          ++ c.lifecycle.restoreEpilogue := by
    rw [Lifecycle.bodyLines, List.append_assoc, List.mem_append]
  rw [steps, List.mem_append, line_mem_block_iff, List.mem_append, List.mem_append, List.mem_cons,
    hsave, hrestore, hbody]
  simp only [hpreamble, hconstants, reduceCtorEq, false_or]
  rw [or_or_or_comm, or_assoc]

/-- No line of a method that is not for a field begins as a statement that reads a field back does,
and only the one that stores the parent's state begins as one that stores a field. -/
theorem head?_of_mem_bodyLines (family : Family) :
  ∀ text ∈ (Lifecycle.ofFamily family).bodyLines,
    text.head? ≠ some 't'
      ∧ (text.head? = some 'o' → text ∈ (saveOpening family).flatMap Statement.lines)
  := by
  cases family <;> decide

theorem head?_saveStatement (c : Companion) (f : SavedField) :
  (c.saveStatement f).head? = some 'o'
  := rfl

theorem head?_restoreStatement (c : Companion) (f : SavedField) :
  (c.restoreStatement f).head? = some 't'
  := rfl

theorem line_saveStatement_mem_iff {f : SavedField} :
  .line (c.saveStatement f) ∈ c.steps ↔ c.saveStatement f ∈ c.fields.map c.saveStatement
  := by
  rw [line_mem_steps_iff (.inl (c.head?_saveStatement f))]
  constructor
  · rintro (h | h | h)
    · exact h
    · obtain ⟨f', -, h⟩ := List.mem_map.1 h
      have hhead := c.head?_restoreStatement f'
      rw [h, head?_saveStatement] at hhead
      cases hhead
    · obtain ⟨-, hopening⟩ := head?_of_mem_bodyLines c.family _ h
      exact absurd (hopening (c.head?_saveStatement f))
        (saveStatement_not_mem_saveOpening c f c.family)
  · exact .inl

theorem line_restoreStatement_mem_iff {f : SavedField} :
  .line (c.restoreStatement f) ∈ c.steps
    ↔ c.restoreStatement f ∈ c.fields.map c.restoreStatement
  := by
  rw [line_mem_steps_iff (.inr (c.head?_restoreStatement f))]
  constructor
  · rintro (h | h | h)
    · obtain ⟨f', -, h⟩ := List.mem_map.1 h
      have hhead := c.head?_saveStatement f'
      rw [h, head?_restoreStatement] at hhead
      cases hhead
    · exact h
    · obtain ⟨hne, -⟩ := head?_of_mem_bodyLines c.family _ h
      exact absurd (c.head?_restoreStatement f) hne
  · exact .inr ∘ .inl

/-- The names that a companion has statements for are those of its fields. -/
theorem hasStatementFor_iff {name : Text} :
  c.HasStatementFor name ↔ name ∈ c.fields.map SavedField.name
  := by
  constructor
  · rintro ⟨f, rfl, h | h⟩
    · obtain ⟨f', hf', h⟩ := List.mem_map.1 (line_saveStatement_mem_iff.1 h)
      rw [← name_eq_of_saveStatement_eq h]
      exact List.mem_map_of_mem hf'
    · obtain ⟨f', hf', h⟩ := List.mem_map.1 (line_restoreStatement_mem_iff.1 h)
      rw [← name_eq_of_restoreStatement_eq h]
      exact List.mem_map_of_mem hf'
  · intro h
    obtain ⟨f, hf, rfl⟩ := List.mem_map.1 h
    use f, rfl
    left
    apply line_saveStatement_mem_iff.2 (List.mem_map_of_mem hf)

end Companion

/-! ### Names that are kept -/

namespace Batch

theorem mem_names_firstOfEachName_iff {fs : List Field} {name : Text} :
  name ∈ (firstOfEachName fs).map Field.name ↔ name ∈ fs.map Field.name
  := by
  induction fs with
  | nil => rfl
  | cons f fs ih =>
    rw [firstOfEachName, List.map_cons, List.map_cons, List.mem_cons, List.mem_cons]
    by_cases h : name = f.name
    · simp [h]
    · rw [mem_names_filter_ne h, ih]

/-- An owner keeps a field of a name exactly if one of its fields of that name is accessible. -/
theorem mem_names_kept_iff {fields : List Field} {owner : TypeName} {name : Text} :
  name ∈ (kept fields owner).map Field.name
    ↔ ∃ f ∈ fields, f.owner = owner ∧ f.name = name ∧ isAccessible f = true
  := by
  rw [kept, mem_names_firstOfEachName_iff, declaredBy, List.mem_map]
  simp only [List.mem_filter, decide_eq_true_eq]
  constructor
  · rintro ⟨f, ⟨⟨hf, howner⟩, haccessible⟩, hname⟩
    exact ⟨f, hf, howner, hname, haccessible⟩
  · rintro ⟨f, hf, howner, hname, haccessible⟩
    exact ⟨f, ⟨⟨hf, howner⟩, haccessible⟩, hname⟩

end Batch

/-! ### Reported fields -/

/-- What is reported of fields are those with a forbidden modifier. -/
theorem Accounts.exists_field_iff {g : Generator} {fields : List Field} {report : Report}
    {failures : List (TypeName × SinkError)} (h : Accounts g fields report failures)
    {owner : TypeName} {name : Text} :
  (∃ d ∈ report.diagnostics, d.subject = .field owner name)
    ↔ ∃ f ∈ fields, f.owner = owner ∧ f.name = name ∧ isAccessible f = false
  := by
  simp only [h.diagnostics_eq, List.mem_append, List.mem_map, rejected, List.mem_filter,
    Bool.not_eq_true']
  constructor
  · rintro ⟨d, ⟨f, ⟨hf, haccessible⟩, rfl⟩ | ⟨f, -, rfl⟩, hsubject⟩
    · cases hsubject
      exact ⟨f, hf, rfl, rfl, haccessible⟩
    · cases hsubject
  · rintro ⟨f, hf, rfl, rfl, haccessible⟩
    exact ⟨_, .inl ⟨f, ⟨hf, haccessible⟩, rfl⟩, rfl⟩

namespace Generator

variable {σ W : Type} (g : Generator) (s : Sink (StateM σ) W)

theorem hasStatementFor_companionOf_iff {fields : List Field} {owner : TypeName} {name : Text} :
  (g.companionOf fields owner).HasStatementFor name
    ↔ ∃ f ∈ fields, f.owner = owner ∧ f.name = name ∧ isAccessible f = true
  := by
  rw [Companion.hasStatementFor_iff, ← mem_names_kept_iff, companionOf, List.map_map]
  rfl

/-- Over any sink and from any state of it, a field is reported exactly if it has a forbidden
modifier, and what is committed are companions of owners.  The companion of an owner has a
statement for a name exactly if the batch has an accessible field of that owner and name; so of the
reported names of an owner it leaves out those that no accessible field of the owner has, and no
others. -/
theorem reported_excluded_iff (fields : List Field) (st : σ) :
  ∃ (report : Report) (calls : List SinkCall) (st' : σ),
    (g.generate s fields).run st = (report, st')
      ∧ g.runTraced s fields st = ((report, calls), st')
      ∧ (∀ commit ∈ calls.filterMap SinkCall.commits?,
        ∃ owner ∈ published fields, commit = g.subjectOf fields owner)
      ∧ (∀ owner name, (∃ d ∈ report.diagnostics, d.subject = .field owner name)
        ↔ ∃ f ∈ fields, f.owner = owner ∧ f.name = name ∧ isAccessible f = false)
      ∧ ∀ owner name, (g.companionOf fields owner).HasStatementFor name
        ↔ ∃ f ∈ fields, f.owner = owner ∧ f.name = name ∧ isAccessible f = true
  := by
  obtain ⟨sessions, report, st', hsubjects, hrun, htraced, -⟩ := g.exists_publishGroups s
    { rejectedFields := (g.collect fields).rejections.length
      diagnostics := (g.collect fields).rejections.map .ofFieldError }
    (g.collect fields).groups.values [] st
  rw [subjects_groups_collect] at hsubjects
  obtain ⟨_, failures, _, hrun', haccounts⟩ := g.exists_accounts s fields st
  cases hrun.symm.trans hrun'
  use report, transcript 0 sessions, st', hrun, htraced
  refine ⟨?_, ?_, ?_⟩
  · intro commit hcommit
    rw [commits_transcript] at hcommit
    have hmem := (committed_sublist sessions).subset hcommit
    rw [hsubjects] at hmem
    obtain ⟨owner, howner, hsubject⟩ := List.mem_map.1 hmem
    exact ⟨owner, howner, hsubject.symm⟩
  · intro owner name
    apply haccounts.exists_field_iff
  · intro owner name
    apply hasStatementFor_companionOf_iff

/-- A private field, and an accessible one of the same owner and name. -/
def relisted : List Field :=
  [{ name := "count", declaredType := "int", owner := ⟨"a.Foo"⟩,
     modifiers := { isPrivate := true } },
   { name := "count", declaredType := "int", owner := ⟨"a.Foo"⟩ }]

/-- The name is reported, and the companion of the owner saves it. -/
theorem relisted_reported_and_saved :
  ∃ (report : Report) (shelf : Shelf),
    (generate ⟨{}, .stock⟩ Shelf.reliable relisted).run .empty = (report, shelf)
      ∧ (∃ d ∈ report.diagnostics, d.subject = .field ⟨"a.Foo"⟩ "count")
      ∧ (companionOf ⟨{}, .stock⟩ relisted ⟨"a.Foo"⟩).HasStatementFor "count"
  := by
  obtain ⟨report, calls, shelf, hrun, -, -, hreported, hsaved⟩ :=
    reported_excluded_iff ⟨{}, .stock⟩ Shelf.reliable relisted .empty
  use report, shelf, hrun
  rw [hreported, hsaved]
  decide

end Generator

end InstanceState
