import InstanceState.Group
import InstanceState.Proofs.Roster

/-!
# Histories of groups

What a group is after any operations on it, in terms of the operations alone.  A group is consistent
if the set of names that are taken is that of its fields, and every operation keeps it so.  Of the
packages, of the classifiers and of the fields of one name, the first counts, and it counts from
then on: the owner stays, and the fields that are there stay where they are.
-/

namespace InstanceState.Group

/-- An operation on a group. -/
inductive Operation where
  | insert (f : SavedField)
  | declarePackage (package : Option Text)
  | familyWith (classify : TypeName → Family)

/-- What an operation gives back, apart from the group. -/
inductive Answer where
  /-- Whether a field was added. -/
  | added (b : Bool)
  | declared
  | family (f : Family)
deriving DecidableEq, Repr

/-- A group after operations, with the answers to them and the owners that classifiers were asked
about. -/
structure History where
  group : Group
  answers : List Answer := []
  asked : List TypeName := []

/-- A classifier that records the owners that it is asked about. -/
def recorded (classify : TypeName → Family) (owner : TypeName) : StateM (List TypeName) Family := do
  modify (· ++ [owner])
  return classify owner

/-- The history with one more operation. -/
def History.next (h : History) : Operation → History
  | .insert f =>
    { group := h.group.insert f
      answers := h.answers ++ [.added (h.group.accepts f.name)]
      asked := h.asked }
  | .declarePackage package =>
    { group := h.group.declarePackage package
      answers := h.answers ++ [.declared]
      asked := h.asked }
  | .familyWith classify =>
    let outcome := (h.group.familyWithM (recorded classify)).run h.asked
    { group := outcome.1.2
      answers := h.answers ++ [.family outcome.1.1]
      asked := outcome.2 }

/-- The history of a new group of an owner. -/
def history (owner : TypeName) (ops : List Operation) : History :=
  ops.foldl History.next { group := .new owner }

theorem history_append (owner : TypeName) (ops more : List Operation) :
  history owner (ops ++ more) = more.foldl History.next (history owner ops)
  := List.foldl_append

theorem history_concat (owner : TypeName) (ops : List Operation) (op : Operation) :
  history owner (ops ++ [op]) = (history owner ops).next op
  := history_append owner ops [op]

/-! ### What the operations ask for -/

/-- The fields that were inserted, whether they were added or not. -/
def inserted (ops : List Operation) : List SavedField :=
  ops.filterMap fun
    | .insert f => some f
    | _ => none

/-- The packages that were declared. -/
def declared (ops : List Operation) : List Text :=
  ops.filterMap fun
    | .declarePackage package => package
    | _ => none

/-- The classifiers that were given. -/
def classifiers (ops : List Operation) : List (TypeName → Family) :=
  ops.filterMap fun
    | .familyWith classify => some classify
    | _ => none

/-- The fields whose insertion was answered with their being added. -/
def added (ops : List Operation) (answers : List Answer) : List SavedField :=
  (ops.zip answers).filterMap fun
    | (.insert f, .added true) => some f
    | _ => none

/-- The answer to an operation after others: a field is added if no field of its name was inserted
before, and the family is that of the first classifier. -/
def answerAfter (owner : TypeName) (before : List Operation) : Operation → Answer
  | .insert f => .added (!((inserted before).map SavedField.name).contains f.name)
  | .declarePackage _ => .declared
  | .familyWith classify => .family (((classifiers before).head?.getD classify) owner)

/-! ### Consistent groups -/

/-- Whether exactly the names of the fields are taken, and no two fields have one name. -/
structure IsConsistent (g : Group) : Prop where
  taken_iff : ∀ name, (g.names.find? name).isSome = true ↔ name ∈ g.fields.map SavedField.name
  nodup : (g.fields.map SavedField.name).Nodup

theorem isConsistent_new (owner : TypeName) :
  (new owner).IsConsistent
  where
  taken_iff _ := iff_of_false Bool.false_ne_true List.not_mem_nil
  nodup := .nil

theorem IsConsistent.accepts_iff {g : Group} (h : g.IsConsistent) (name : Text) :
  g.accepts name = true ↔ name ∉ g.fields.map SavedField.name
  := by
  rw [accepts, ← h.taken_iff, Bool.not_eq_true, Option.isSome_eq_false_iff]

/-- A field is put at the end of the others or left out. -/
theorem IsConsistent.insert {g : Group} (h : g.IsConsistent) (f : SavedField) :
  (g.insert f).IsConsistent
  := by
  rw [Group.insert]
  by_cases haccepts : g.accepts f.name = true
  · rw [if_pos haccepts]
    have hname := (h.accepts_iff f.name).1 haccepts
    constructor
    · intro name
      rw [Roster.find?_insert, List.map_append, List.mem_append, List.map_singleton,
        List.mem_singleton]
      split_ifs with heq
      · exact iff_of_true rfl (.inr heq)
      · rw [h.taken_iff, or_iff_left heq]
    · rw [List.map_append, List.map_singleton, ← List.concat_eq_append]
      exact List.Nodup.concat hname h.nodup
  · rw [if_neg haccepts]
    exact h

/-! ### One operation -/

@[simp]
theorem owner_insert (g : Group) (f : SavedField) :
  (g.insert f).owner = g.owner
  := by
  rw [insert]
  split <;> rfl

@[simp]
theorem package_insert (g : Group) (f : SavedField) :
  (g.insert f).package = g.package
  := by
  rw [insert]
  split <;> rfl

@[simp]
theorem family_insert (g : Group) (f : SavedField) :
  (g.insert f).family = g.family
  := by
  rw [insert]
  split <;> rfl

theorem fields_insert (g : Group) (f : SavedField) :
  (g.insert f).fields = if g.accepts f.name = true then g.fields ++ [f] else g.fields
  := by
  rw [insert]
  split <;> rfl

/-- Deciding the family changes the family alone. -/
theorem familyWith_snd (g : Group) (classify : TypeName → Family) :
  (g.familyWith classify).2 = { g with family := g.family <|> some (classify g.owner) }
  := by
  obtain ⟨owner, package, fields, names, family⟩ := g
  cases family <;> rfl

theorem familyWith_fst (g : Group) (classify : TypeName → Family) :
  (g.familyWith classify).1 = g.family.getD (classify g.owner)
  := by
  rw [familyWith, familyWithM]
  cases g.family <;> rfl

/-- The classifier is asked if the family was not decided before, about the owner and once. -/
theorem run_familyWithM_recorded (g : Group) (classify : TypeName → Family)
    (asked : List TypeName) :
  (g.familyWithM (recorded classify)).run asked
    = (g.familyWith classify, if g.family.isNone then asked ++ [g.owner] else asked)
  := by
  rw [familyWith, familyWithM, familyWithM]
  cases g.family <;> rfl

theorem History.group_next_familyWith (h : History) (classify : TypeName → Family) :
  (h.next (.familyWith classify)).group
    = { h.group with family := h.group.family <|> some (classify h.group.owner) }
  := by
  rw [next, run_familyWithM_recorded, familyWith_snd]

/-- The fields that a group has stay in front of those that are added later. -/
theorem History.fields_prefix_next (h : History) (op : Operation) :
  h.group.fields <+: (h.next op).group.fields
  := by
  cases op with
  | insert f =>
    rw [next, fields_insert]
    split
    · apply List.prefix_append
    · exact List.prefix_rfl
  | declarePackage package => exact List.prefix_rfl
  | familyWith classify =>
    have hfields := congrArg Group.fields (h.group_next_familyWith classify)
    exact ⟨[], (List.append_nil _).trans hfields.symm⟩

/-! ### Histories by their operations -/

/-- What a history is by its operations.  The group is consistent, of the owner that it was made
for, with the first package that was declared and with the family that the first classifier gives,
which is the only one that was asked.  Its fields are the inserted ones that were answered with
their being added, which are the first of each name. -/
structure History.Follows (h : History) (owner : TypeName) (ops : List Operation) : Prop where
  consistent : h.group.IsConsistent
  owner_eq : h.group.owner = owner
  package_eq : h.group.package = (declared ops).head?
  family_eq : h.group.family = (classifiers ops).head?.map fun classify => classify owner
  asked_eq : h.asked = (classifiers ops).head?.toList.map fun _ => owner
  fields_eq : h.group.fields = added ops h.answers
  mem_names_iff : ∀ name,
    name ∈ h.group.fields.map SavedField.name ↔ name ∈ (inserted ops).map SavedField.name
  length_answers : h.answers.length = ops.length
  answers_getElem? : ∀ before op after, ops = before ++ op :: after →
    h.answers[before.length]? = some (answerAfter owner before op)

theorem follows_new (owner : TypeName) :
  (⟨.new owner, [], []⟩ : History).Follows owner []
  where
  consistent := isConsistent_new owner
  owner_eq := rfl
  package_eq := rfl
  family_eq := rfl
  asked_eq := rfl
  fields_eq := rfl
  mem_names_iff _ := Iff.rfl
  length_answers := rfl
  answers_getElem? before op after h := by simp at h

namespace History.Follows

variable {h : History} {owner : TypeName} {ops : List Operation}

theorem accepts_iff (hops : h.Follows owner ops) (name : Text) :
  h.group.accepts name = true ↔ name ∉ (inserted ops).map SavedField.name
  := by
  rw [hops.consistent.accepts_iff, hops.mem_names_iff]

/-- An operation is answered by what was done before it. -/
theorem answers_next (hops : h.Follows owner ops) (op : Operation) :
  (h.next op).answers = h.answers ++ [answerAfter owner ops op]
  := by
  cases op with
  | insert f =>
    have haccepts : h.group.accepts f.name
        = !((inserted ops).map SavedField.name).contains f.name := by
      rw [Bool.eq_iff_iff, hops.accepts_iff, Bool.not_eq_true', ← Bool.not_eq_true,
        List.contains_iff_mem]
    rw [next, haccepts, answerAfter]
  | declarePackage package => rfl
  | familyWith classify =>
    rw [next, run_familyWithM_recorded, answerAfter, familyWith_fst, hops.family_eq,
      hops.owner_eq]
    cases (classifiers ops).head? <;> rfl

theorem length_answers_next (hops : h.Follows owner ops) (op : Operation) :
  (h.next op).answers.length = (ops ++ [op]).length
  := by
  rw [hops.answers_next, List.length_append, List.length_append, hops.length_answers]
  rfl

/-- The earlier answers stay as they are. -/
theorem answers_next_getElem? (hops : h.Follows owner ops) (op : Operation)
    {before after : List Operation} {op' : Operation}
    (hsplit : ops ++ [op] = before ++ op' :: after) :
  (h.next op).answers[before.length]? = some (answerAfter owner before op')
  := by
  rw [hops.answers_next]
  rcases List.eq_nil_or_concat' after with rfl | ⟨after, last, rfl⟩
  · obtain ⟨rfl, heq⟩ := List.append_inj' hsplit rfl
    cases heq
    rw [← hops.length_answers, List.getElem?_concat_length]
  · rw [← List.cons_append, ← List.append_assoc] at hsplit
    obtain ⟨rfl, -⟩ := List.append_inj' hsplit rfl
    have hlt : before.length < h.answers.length := by
      rw [hops.length_answers]
      simp
    rw [List.getElem?_append_left hlt]
    exact hops.answers_getElem? before op' after rfl

theorem added_next (hops : h.Follows owner ops) (op : Operation) :
  added (ops ++ [op]) (h.next op).answers = h.group.fields ++ added [op] [answerAfter owner ops op]
  := by
  rw [hops.answers_next, added, List.zip_append hops.length_answers.symm, List.filterMap_append,
    hops.fields_eq]
  rfl

theorem insert (hops : h.Follows owner ops) (f : SavedField) :
  (h.next (.insert f)).Follows owner (ops ++ [.insert f])
  := by
  refine
    { consistent := hops.consistent.insert f
      owner_eq := (owner_insert _ f).trans hops.owner_eq
      package_eq := ?_
      family_eq := ?_
      asked_eq := ?_
      fields_eq := ?_
      mem_names_iff := ?_
      length_answers := hops.length_answers_next _
      answers_getElem? := fun _ _ _ => hops.answers_next_getElem? _ }
  · simp [next, hops.package_eq, declared]
  · simp [next, hops.family_eq, classifiers]
  · simp [next, hops.asked_eq, classifiers]
  · rw [hops.added_next, next, fields_insert, answerAfter]
    by_cases hname : f.name ∈ (inserted ops).map SavedField.name
    · rw [if_neg fun h => (hops.accepts_iff f.name).1 h hname, List.contains_iff_mem.2 hname]
      simp [added]
    · rw [if_pos ((hops.accepts_iff f.name).2 hname),
        Bool.eq_false_iff.2 fun h => hname (List.contains_iff_mem.1 h)]
      rfl
  · intro name
    have hinserted : inserted (ops ++ [.insert f]) = inserted ops ++ [f] := by
      simp [inserted]
    rw [hinserted, next, fields_insert, List.map_append, List.mem_append, ← hops.mem_names_iff]
    by_cases hname : f.name ∈ (inserted ops).map SavedField.name
    · rw [if_neg fun h => (hops.accepts_iff f.name).1 h hname]
      rw [← hops.mem_names_iff] at hname
      rw [or_iff_left_of_imp]
      intro h
      rw [List.mem_singleton.1 h]
      exact hname
    · rw [if_pos ((hops.accepts_iff f.name).2 hname), List.map_append, List.mem_append]

theorem declarePackage (hops : h.Follows owner ops) (package : Option Text) :
  (h.next (.declarePackage package)).Follows owner (ops ++ [.declarePackage package])
  := by
  refine
    { consistent := ⟨hops.consistent.taken_iff, hops.consistent.nodup⟩
      owner_eq := hops.owner_eq
      package_eq := ?_
      family_eq := ?_
      asked_eq := ?_
      fields_eq := ?_
      mem_names_iff := ?_
      length_answers := hops.length_answers_next _
      answers_getElem? := fun _ _ _ => hops.answers_next_getElem? _ }
  · have hdeclared : declared (ops ++ [.declarePackage package])
        = declared ops ++ package.toList := by
      cases package <;> simp [declared]
    rw [hdeclared, List.head?_append, next, Group.declarePackage, hops.package_eq,
      Option.head?_toList]
    exact Option.orElse_eq_or
  · simp [next, Group.declarePackage, hops.family_eq, classifiers]
  · simp [next, hops.asked_eq, classifiers]
  · rw [hops.added_next]
    simp [next, Group.declarePackage, added]
  · intro name
    have hinserted : inserted (ops ++ [.declarePackage package]) = inserted ops := by
      simp [inserted]
    rw [hinserted, ← hops.mem_names_iff]
    rfl

theorem familyWith (hops : h.Follows owner ops) (classify : TypeName → Family) :
  (h.next (.familyWith classify)).Follows owner (ops ++ [.familyWith classify])
  := by
  have hgroup : (h.next (.familyWith classify)).group
      = { h.group with family := h.group.family <|> some (classify h.group.owner) } :=
    h.group_next_familyWith classify
  have hclassifiers : classifiers (ops ++ [.familyWith classify])
      = classifiers ops ++ [classify] := by
    simp [classifiers]
  refine
    { consistent := ?_
      owner_eq := ?_
      package_eq := ?_
      family_eq := ?_
      asked_eq := ?_
      fields_eq := ?_
      mem_names_iff := ?_
      length_answers := hops.length_answers_next _
      answers_getElem? := fun _ _ _ => hops.answers_next_getElem? _ }
  · rw [hgroup]
    exact ⟨hops.consistent.taken_iff, hops.consistent.nodup⟩
  · rw [hgroup]
    exact hops.owner_eq
  · simp [hgroup, hops.package_eq, declared]
  · rw [hgroup, hclassifiers, hops.family_eq, hops.owner_eq, List.head?_append]
    cases (classifiers ops).head? <;> rfl
  · rw [next, run_familyWithM_recorded, hclassifiers, List.head?_append, hops.family_eq,
      hops.asked_eq, hops.owner_eq]
    cases (classifiers ops).head? <;> rfl
  · rw [hops.added_next, hgroup]
    simp [added]
  · intro name
    have hinserted : inserted (ops ++ [.familyWith classify]) = inserted ops := by
      simp [inserted]
    rw [hinserted, hgroup, ← hops.mem_names_iff]

/-- An operation takes a history to that of one more operation. -/
theorem next (hops : h.Follows owner ops) (op : Operation) :
  (h.next op).Follows owner (ops ++ [op])
  := by
  cases op with
  | insert f => exact hops.insert f
  | declarePackage package => exact hops.declarePackage package
  | familyWith classify => exact hops.familyWith classify

end History.Follows

/-- After any operations a group is what these say. -/
theorem follows_history (owner : TypeName) (ops : List Operation) :
  (history owner ops).Follows owner ops
  := by
  induction ops using List.reverseRecOn with
  | nil => exact follows_new owner
  | append_singleton ops op ih =>
    rw [history_concat]
    exact ih.next op

/-- Later operations put fields after those that are there. -/
theorem fields_prefix_history (owner : TypeName) (ops more : List Operation) :
  (history owner ops).group.fields <+: (history owner (ops ++ more)).group.fields
  := by
  induction more using List.reverseRecOn with
  | nil => exact ⟨[], by simp only [List.append_nil]⟩
  | append_singleton more op ih =>
    rw [← List.append_assoc, history_concat]
    exact List.IsPrefix.trans ih (History.fields_prefix_next _ op)

end InstanceState.Group
