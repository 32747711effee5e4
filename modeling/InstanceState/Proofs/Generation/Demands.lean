import InstanceState.Proofs.Generation.Intake
import InstanceState.Proofs.Histories
import InstanceState.Sink.Memory

/-!
# Demands on groups

Two demands are made while a batch is run: a field is inserted into a group of its own owner, and a
companion is written for a group with fields.  A run that makes them and stops where one is not met
does what a run without them does, over any sink; so they are always met.  The reason is what the
groups are at every point of the intake: each is kept under its own owner, and is what operations
for the fields of this owner make of a new group.
-/

namespace InstanceState

open Batch

/-! ### Groups at every point of the intake -/

namespace Batch

theorem firstOfEachName_sublist (fs : List Field) :
  (firstOfEachName fs).Sublist fs
  := by
  induction fs with
  | nil => exact .slnil
  | cons f fs ih => exact (List.filter_sublist.trans ih).cons_cons f

theorem owner_of_mem_kept {fields : List Field} {owner : TypeName} {f : Field}
    (h : f ∈ kept fields owner) :
  f.owner = owner
  := by
  have hdeclared := List.mem_of_mem_filter ((firstOfEachName_sublist _).subset h)
  exact of_decide_eq_true (List.mem_filter.1 hdeclared).2

end Batch

namespace Generator

variable (g : Generator)

/-- What a field does to the group of its owner. -/
def operationsOf (f : Field) : List Group.Operation :=
  .declarePackage f.package :: if isAccessible f then [.insert (g.save f)] else []

/-- What the fields of an owner do to its group. -/
def operationsFor (fields : List Field) (owner : TypeName) : List Group.Operation :=
  (declaredBy fields owner).flatMap g.operationsOf

/-- The group that a batch makes up for an owner is what its fields make of a new group. -/
theorem group_history_operationsFor (fields : List Field) (owner : TypeName) :
  (Group.history owner (g.operationsFor fields owner)).group = g.groupOf fields owner
  := by
  induction fields using List.reverseRecOn with
  | nil => rfl
  | append_singleton fields f ih =>
    by_cases howner : f.owner = owner
    · subst howner
      rw [operationsFor, declaredBy_append_self, List.flatMap_append, Group.history_append,
        ← enroll_groupOf, ← ih, enroll_some, List.flatMap_singleton, operationsOf, List.foldl_cons]
      cases isAccessible f <;> rfl
    · rw [groupOf_append_of_ne g howner, ← ih, operationsFor, declaredBy_append_of_ne howner]
      rfl

/-- Each group is kept under its own owner, and has fields of this owner only. -/
theorem mem_entries_collect {fields : List Field} {e : Text × Group}
    (he : e ∈ (g.collect fields).groups.entries) :
  e.2.owner.text = e.1
    ∧ (∀ f ∈ e.2.fields, f.field.owner = e.2.owner)
    ∧ e.2 = (Group.history e.2.owner (g.operationsFor fields e.2.owner)).group
  := by
  have hfind : (g.collect fields).groups.find? e.1 = some e.2 :=
    Roster.lookup_of_mem (g.collect fields).groups.ordered he
  rw [g.find?_collect fields ⟨e.1⟩] at hfind
  obtain ⟨-, hgroup⟩ := Option.ite_none_right_eq_some.1 hfind
  rw [← Option.some.inj hgroup]
  refine ⟨rfl, ?_, (g.group_history_operationsFor fields ⟨e.1⟩).symm⟩
  intro saved hsaved
  obtain ⟨f, hf, rfl⟩ := List.mem_map.1 hsaved
  exact owner_of_mem_kept hf

end Generator

/-! ### Checked runs -/

/-- What a demand that is not met says. -/
inductive Breach where
  /-- A field was to be inserted into the group of another owner. -/
  | foreignField (name : Text) (owner : TypeName)
  /-- A companion was to be written without fields. -/
  | noFields (artifact : Text)
deriving DecidableEq, Repr

/-- The insertion of a field, which must be one of the group's owner. -/
def Group.insertChecked (group : Group) (f : SavedField) : Except Breach Group :=
  if f.field.owner = group.owner then .ok (group.insert f)
  else .error (.foreignField f.name group.owner)

/-- The octets of a companion, which must have fields. -/
def Companion.chunksChecked (c : Companion) : Except Breach (List (List UInt8)) :=
  if c.fields.isEmpty then .error (.noFields c.artifact) else .ok c.chunks

namespace Generator

/-- `enroll` with a checked insertion. -/
def enrollChecked (g : Generator) (f : Field) (group : Option Group) : Except Breach Group :=
  let group := (group.getD (.new f.owner)).declarePackage f.package
  if f.isValid then group.insertChecked (g.save f) else .ok group

/-- `receive` with a checked insertion. -/
def receiveChecked (g : Generator) (intake : Intake) (f : Field) : Except Breach Intake := do
  let group ← g.enrollChecked f (intake.groups.find? f.owner.text)
  return {
    groups := intake.groups.insert f.owner.text group
    rejections := intake.rejections ++ (FieldError.ofField? f).toList }

/-- `collect` with checked insertions. -/
def collectChecked (g : Generator) (fields : List Field) : Except Breach Intake :=
  fields.foldlM g.receiveChecked {}

section Publication

variable {m : Type → Type} [Monad m] {W : Type}

/-- `publishGroup` with a checked companion. -/
def publishGroupChecked (g : Generator) (sink : Sink m W) (report : Report) (group : Group) :
    ExceptT Breach m Report := do
  if group.isEmpty then
    pure { report with skippedGroups := report.skippedGroups + 1 }
  else
    let companion := g.companion group
    let chunks ← ExceptT.mk (pure companion.chunksChecked)
    match ← ExceptT.lift (sink.publish companion.artifact chunks) with
    | .ok () => pure { report with written := report.written ++ [companion.artifact] }
    | .error e =>
      pure { report with
        failedGroups := report.failedGroups + 1
        diagnostics := report.diagnostics ++ [.ofSinkError group.owner e] }

/-- `publishGroups` with checked companions. -/
def publishGroupsChecked (g : Generator) (sink : Sink m W) (report : Report) :
    List Group → ExceptT Breach m Report
  | [] => pure report
  | group :: rest => do
    g.publishGroupsChecked sink (← g.publishGroupChecked sink report group) rest

/-- `generate` with checked insertions and companions. -/
def generateChecked (g : Generator) (sink : Sink m W) (fields : List Field) :
    ExceptT Breach m Report := do
  let intake ← ExceptT.mk (pure (g.collectChecked fields))
  g.publishGroupsChecked sink
    { rejectedFields := intake.rejections.length
      diagnostics := intake.rejections.map .ofFieldError }
    intake.groups.values

end Publication

/-! ### The demands are met -/

variable (g : Generator)

theorem enrollChecked_eq {f : Field} {group : Option Group}
    (h : ∀ group' ∈ group, group'.owner = f.owner) :
  g.enrollChecked f group = .ok (g.enroll f group)
  := by
  have howner : (g.save f).field.owner
      = ((group.getD (.new f.owner)).declarePackage f.package).owner := by
    cases group with
    | none => rfl
    | some group => exact (h group rfl).symm
  rw [enrollChecked, enroll, Group.insertChecked, if_pos howner]
  split <;> rfl

/-- Each field finds the group of its own owner, or none. -/
theorem receiveChecked_collect (fields : List Field) (f : Field) :
  g.receiveChecked (g.collect fields) f = .ok (g.receive (g.collect fields) f)
  := by
  have howner : ∀ group ∈ (g.collect fields).groups.find? f.owner.text,
      group.owner = f.owner := by
    intro group hgroup
    rw [g.find?_collect fields f.owner] at hgroup
    obtain ⟨-, heq⟩ := Option.ite_none_right_eq_some.1 hgroup
    exact congrArg Group.owner (Option.some.inj heq).symm
  rw [receiveChecked, g.enrollChecked_eq howner, receive, Roster.alter_eq_insert]
  rfl

theorem collectChecked_eq (fields : List Field) :
  g.collectChecked fields = .ok (g.collect fields)
  := by
  induction fields using List.reverseRecOn with
  | nil => rfl
  | append_singleton fields f ih =>
    rw [collectChecked, List.foldlM_append, ← collectChecked, ih, collect_append]
    exact (congrArg (· >>= pure) (g.receiveChecked_collect fields f)).trans rfl

variable {m : Type → Type} [Monad m] [LawfulMonad m] {W : Type} (sink : Sink m W)

/-- A group is not empty if it gets as far as its companion. -/
theorem run_publishGroupChecked (report : Report) (group : Group) :
  (g.publishGroupChecked sink report group).run = Except.ok <$> g.publishGroup sink report group
  := by
  rw [publishGroupChecked, publishGroup]
  split
  · simp
  · rename_i hempty
    have hchunks : (g.companion group).chunksChecked = .ok (g.companion group).chunks :=
      if_neg hempty
    simp only [hchunks, ExceptT.run_bind, ExceptT.run_mk, pure_bind, ExceptT.run_lift, map_bind,
      bind_map_left]
    apply bind_congr
    rintro (e | ⟨⟩)
    · simp
    · simp

theorem run_publishGroupsChecked (report : Report) (groups : List Group) :
  (g.publishGroupsChecked sink report groups).run
    = Except.ok <$> g.publishGroups sink report groups
  := by
  induction groups generalizing report with
  | nil => simp [publishGroupsChecked, publishGroups]
  | cons group groups ih =>
    rw [publishGroupsChecked, publishGroups, ExceptT.run_bind, run_publishGroupChecked]
    simp [ih]

/-- A run that makes the demands does what a run without them does. -/
theorem run_generateChecked (fields : List Field) :
  (g.generateChecked sink fields).run = Except.ok <$> g.generate sink fields
  := by
  rw [generateChecked, collectChecked_eq, ExceptT.run_bind, generate]
  simp [run_publishGroupsChecked]

end Generator

namespace Group

/-- A group is what the operations on it say, and keeps the fields that it has where they are.  At
every point of the intake of a batch each group is kept under its own owner, has fields of this
owner only, and is what the operations of these fields make of a new group; and no batch, over no
sink, inserts a field into the group of another owner or writes a companion without fields. -/
theorem groups_follow_operations :
  (∀ owner ops, (history owner ops).Follows owner ops
      ∧ ∀ more, (history owner ops).group.fields <+: (history owner (ops ++ more)).group.fields)
    ∧ ∀ g : Generator,
      (∀ seen, ∀ e ∈ (g.collect seen).groups.entries,
        e.2.owner.text = e.1
          ∧ (∀ f ∈ e.2.fields, f.field.owner = e.2.owner)
          ∧ e.2 = (history e.2.owner (g.operationsFor seen e.2.owner)).group)
      ∧ ∀ {m : Type → Type} [Monad m] [LawfulMonad m] {W : Type} (sink : Sink m W)
          (fields : List Field),
        (g.generateChecked sink fields).run = Except.ok <$> g.generate sink fields
  := by
  constructor
  · intro owner ops
    use follows_history owner ops
    intro more
    apply fields_prefix_history
  · intro g
    constructor
    · intro seen e he
      apply g.mem_entries_collect he
    · intro m _ _ W sink fields
      apply g.run_generateChecked sink fields

/-- A field of the class `a.Foo`, with its command. -/
def fooField (name : Text) (kind : CommandKind) : SavedField :=
  ⟨{ name, declaredType := [], owner := ⟨"a.Foo"⟩ }, .plain kind⟩

/-- Two fields of one name, two packages and two classifiers that disagree. -/
def disputed : List Operation :=
  [.insert (fooField "x" .int), .declarePackage none, .familyWith fun _ => .view,
   .insert (fooField "y" .long), .declarePackage (some "a"), .insert (fooField "x" .string),
   .familyWith fun _ => .host, .declarePackage (some "b")]

/-- Two fields of one class, one of them private. -/
def disputedFields : List Field :=
  [{ name := "p", declaredType := "int", owner := ⟨"a.Foo"⟩, modifiers := { isPrivate := true } },
   { name := "x", declaredType := "int", owner := ⟨"a.Foo"⟩ }]

/-- Of two fields, packages and classifiers the first ones count, and the demands are met. -/
theorem disputed_history :
  (history ⟨"a.Foo"⟩ disputed).group.fields = [fooField "x" .int, fooField "y" .long]
    ∧ (history ⟨"a.Foo"⟩ disputed).group.package = some ↑"a"
    ∧ (history ⟨"a.Foo"⟩ disputed).asked = [⟨"a.Foo"⟩]
    ∧ (history ⟨"a.Foo"⟩ disputed).answers[5]? = some (.added false)
    ∧ (history ⟨"a.Foo"⟩ disputed).answers[6]? = some (.family .view)
    ∧ (∃ e ∈ (Generator.collect ⟨{}, .stock⟩ disputedFields).groups.entries,
      e.1 = "a.Foo" ∧ e.2.owner.text = e.1 ∧ ∀ f ∈ e.2.fields, f.field.owner = e.2.owner)
    ∧ (Generator.generateChecked ⟨{}, .stock⟩ Shelf.reliable disputedFields).run
      = Except.ok <$> Generator.generate ⟨{}, .stock⟩ Shelf.reliable disputedFields
  := by
  obtain ⟨hhistory, hgenerator⟩ := groups_follow_operations
  obtain ⟨hfollows, -⟩ := hhistory ⟨"a.Foo"⟩ disputed
  obtain ⟨hentries, hchecked⟩ := hgenerator ⟨{}, .stock⟩
  have hentry : (↑"a.Foo", Generator.groupOf ⟨{}, .stock⟩ disputedFields ⟨"a.Foo"⟩)
      ∈ (Generator.collect ⟨{}, .stock⟩ disputedFields).groups.entries :=
    List.mem_singleton.2 rfl
  obtain ⟨howner, hfields, -⟩ := hentries disputedFields _ hentry
  refine ⟨hfollows.fields_eq, hfollows.package_eq, hfollows.asked_eq,
    hfollows.answers_getElem? (disputed.take 5) _ (disputed.drop 6) rfl,
    hfollows.answers_getElem? (disputed.take 6) _ (disputed.drop 7) rfl,
    ⟨_, hentry, rfl, howner, hfields⟩, hchecked Shelf.reliable disputedFields⟩

end Group

end InstanceState
