import InstanceState.Proofs.Generation.Ledger
import InstanceState.Proofs.Resolution.Growth
import InstanceState.Sink.Memory

/-!
# The ancestry that a batch depends on

Generation asks the graph about the owners of a batch, and about the texts that resolution visits:
a declared type, and from an array or a container on its element.  It asks which types these can be
used as, and so the declarations under the names that they reach are all that it depends on.
-/

namespace InstanceState

namespace Resolver

open TypeShape

/-! ### Visited texts -/

/-- The texts that resolution comes to from a type: the type without the blank characters at its
ends, and what it comes to from the element, if the type is an array of which the kind depends on
its element, or one of the containers with a single argument. -/
inductive Visits : Text → Text → Prop where
  | self (type : Text) : Visits type (Text.trim type)
  | element {type element text : Text} : parse type = .array element →
      (arrayElementKind? element).bind CommandKind.arrayOf? = none → Visits element text →
      Visits type text
  | argument {type base element text : Text} : parse type = .parameterized base [element] →
      base = arrayListName ∨ base = sparseArrayName → Visits element text → Visits type text

theorem Visits.eq_trim_of_plain {type name text : Text} (hshape : parse type = .plain name)
    (h : Visits type text) :
  text = Text.trim type
  := by
  cases h with
  | self => rfl
  | element harray => cases hshape.symm.trans harray
  | argument hcontainer => cases hshape.symm.trans hcontainer

variable {g g' : TypeGraph}

theorem byAncestry_congr {type : Text} (h : g.AgreesFrom g' type) (base : Text) :
  (mk g' base).byAncestry type = (mk g base).byAncestry type
  := by
  rw [byAncestry, byAncestry, h.isAssignable]

/-- The rules on shapes give the same command if visited elements have the same. -/
theorem shapeCommand?_congr {r r' : Resolver} {type : Text}
    (h : ∀ element, element.length < type.length →
      (∀ text, Visits element text → Visits type text) → r'.resolve element = r.resolve element) :
  r'.shapeCommand? (parse type) = r.shapeCommand? (parse type)
  := by
  cases hshape : parse type with
  | array element =>
    -- The element is visited only if its command matters, that is if its arrays have no own kind.
    cases hkind : (arrayElementKind? element).bind CommandKind.arrayOf? with
    | some kind => rw [shapeCommand?, shapeCommand?, arrayCommand?, arrayCommand?, hkind]
    | none =>
      rw [shapeCommand?, shapeCommand?, h element (length_lt_of_parse_array hshape)]
      intro text
      apply Visits.element hshape hkind
  | parameterized base arguments =>
    cases arguments with
    | nil => rfl
    | cons element rest =>
      cases rest with
      | nil =>
        rw [shapeCommand?, shapeCommand?]
        by_cases hbase : base = arrayListName ∨ base = sparseArrayName
        · have hshort := length_lt_of_parse_parameterized hshape (List.mem_singleton_self element)
          rw [h element hshort]
          intro text
          apply Visits.argument hshape hbase
        · obtain ⟨hlist, hsparse⟩ := not_or.1 hbase
          rw [containerCommand?_of_ne hlist hsparse, containerCommand?_of_ne hlist hsparse]
      | cons _ _ => rfl
  | plain name => rfl

/-- A type has the same command by two graphs that agree on all that it visits. -/
theorem resolve_congr {type : Text} (h : ∀ text, Visits type text → g.AgreesFrom g' text)
    (base : Text) :
  resolve ⟨g', base⟩ type = resolve ⟨g, base⟩ type
  := by
  induction hn : type.length using Nat.strong_induction_on generalizing type with
  | h n ih =>
    have hshape : (mk g' base).shapeCommand? (parse type)
        = (mk g base).shapeCommand? (parse type) := by
      apply shapeCommand?_congr
      intro element hlt hvisits
      rw [hn] at hlt
      apply ih _ hlt _ rfl
      intro text htext
      apply h text (hvisits text htext)
    rw [resolve_eq, resolve_eq, hshape, byAncestry_congr (h _ (.self type))]

end Resolver

/-! ### Batches -/

/-- Two graphs agree on the owners of the fields and on the texts that their types visit. -/
structure TypeGraph.AgreesOn (g g' : TypeGraph) (fields : List Field) : Prop where
  owners : ∀ f ∈ fields, g.AgreesFrom g' f.owner.text
  types : ∀ f ∈ fields, ∀ text, Resolver.Visits f.declaredType text → g.AgreesFrom g' text

namespace TypeGraph.AgreesOn

open Batch Generator

variable {g g' : TypeGraph} {fields : List Field} (h : g.AgreesOn g' fields)
  (settings : GeneratorSettings)

include h

theorem resolve_eq {f : Field} (hf : f ∈ fields) :
  Resolver.resolve ⟨g', settings.parcelableBase⟩ f.declaredType
    = Resolver.resolve ⟨g, settings.parcelableBase⟩ f.declaredType
  := Resolver.resolve_congr (h.types f hf) settings.parcelableBase

theorem family_eq {f : Field} (hf : f ∈ fields) :
  g'.family f.owner settings.viewBases = g.family f.owner settings.viewBases
  := (h.owners f hf).family settings.viewBases

theorem collect_eq :
  collect ⟨settings, g'⟩ fields = collect ⟨settings, g⟩ fields
  := by
  apply List.foldl_ext
  intro intake f hf
  have henroll : enroll ⟨settings, g'⟩ f = enroll ⟨settings, g⟩ f := by
    funext group
    rw [enroll, enroll, save, save, resolver, resolver, h.resolve_eq settings hf]
  rw [receive, receive, henroll]

/-- A group of an owner of the batch becomes the same companion. -/
theorem companion_eq {group : Group} (hgroup : ∃ f ∈ fields, f.owner = group.owner) :
  companion ⟨settings, g'⟩ group = companion ⟨settings, g⟩ group
  := by
  obtain ⟨f, hf, howner⟩ := hgroup
  have hfamily := h.family_eq settings hf
  rw [howner] at hfamily
  rw [companion, companion, Group.familyWith, Group.familyWith, Group.familyWithM,
    Group.familyWithM, hfamily]

theorem groupOf_eq {f : Field} (hf : f ∈ fields) :
  groupOf ⟨settings, g'⟩ fields f.owner = groupOf ⟨settings, g⟩ fields f.owner
  := by
  have hseen : ∃ f' ∈ fields, f'.owner = f.owner := by
    use f, hf
  have hfind := find?_collect ⟨settings, g'⟩ fields f.owner
  rw [h.collect_eq settings, find?_collect, if_pos hseen, if_pos hseen] at hfind
  apply (Option.some.inj hfind).symm

theorem companionOf_eq {f : Field} (hf : f ∈ fields) :
  companionOf ⟨settings, g'⟩ fields f.owner = companionOf ⟨settings, g⟩ fields f.owner
  := by
  rw [← companion_groupOf, ← companion_groupOf, h.groupOf_eq settings hf, h.companion_eq settings]
  use f, hf
  rfl

variable {m : Type → Type} [Monad m] {W : Type} (sink : Sink m W)

/-- Groups of owners of the batch are published in the same way. -/
theorem publishGroups_eq {groups : List Group}
    (hgroups : ∀ group ∈ groups, ∃ f ∈ fields, f.owner = group.owner) (report : Report) :
  publishGroups ⟨settings, g'⟩ sink report groups = publishGroups ⟨settings, g⟩ sink report groups
  := by
  induction groups generalizing report with
  | nil => rfl
  | cons group groups ih =>
    obtain ⟨hgroup, hgroups⟩ := List.forall_mem_cons.1 hgroups
    rw [publishGroups, publishGroups, publishGroup, publishGroup, h.companion_eq settings hgroup]
    congr
    funext report
    apply ih hgroups

theorem generate_eq :
  generate ⟨settings, g'⟩ sink fields = generate ⟨settings, g⟩ sink fields
  := by
  rw [generate, generate, h.collect_eq settings]
  apply h.publishGroups_eq settings sink
  intro group hgroup
  rw [groups_collect, List.mem_map] at hgroup
  obtain ⟨owner, howner, rfl⟩ := hgroup
  apply mem_owners_iff.1 howner

end TypeGraph.AgreesOn

namespace Generator

open Resolver TypeGraph

/-- Two graphs that agree on a batch, that is under the names which are reached from its owners and
from the texts that its types visit, give the same commands, families and companions.  The batch
then does the same over any sink, and has the same report. -/
theorem batch_depends_on_ancestry {g g' : TypeGraph} {fields : List Field}
    (h : g.AgreesOn g' fields) (settings : GeneratorSettings) :
  (∀ f ∈ fields,
      Resolver.resolve ⟨g', settings.parcelableBase⟩ f.declaredType
          = Resolver.resolve ⟨g, settings.parcelableBase⟩ f.declaredType
        ∧ g'.family f.owner settings.viewBases = g.family f.owner settings.viewBases
        ∧ companionOf ⟨settings, g'⟩ fields f.owner = companionOf ⟨settings, g⟩ fields f.owner)
    ∧ ∀ {m : Type → Type} [Monad m] {W : Type} (sink : Sink m W),
      generate ⟨settings, g'⟩ sink fields = generate ⟨settings, g⟩ sink fields
  := by
  constructor
  · intro f hf
    use h.resolve_eq settings hf, h.family_eq settings hf, h.companionOf_eq settings hf
  · intro m _ W sink
    apply h.generate_eq settings sink

/-- Fields of the panel, which keep boxes and no crates. -/
def cargo : List Field :=
  [{ name := "rows", declaredType := "java.util.ArrayList<a.Box2[]>", owner := ⟨"a.Panel"⟩ },
   { name := "count", declaredType := "int", owner := ⟨"a.Panel"⟩ }]

/-- The names that the fields need, out of which no declaration leads. -/
def cargoNames : List Text :=
  ["a.Panel", "android.view.View", "java.util.ArrayList", "a.Box2[]", "a.Box2",
   "android.os.Parcelable", "int"]

theorem agreesOn_cargo :
  depot.AgreesOn yard cargo
  := by
  have hagrees : ∀ type, erasure type ∈ cargoNames → depot.AgreesFrom yard type := by
    intro type htype
    apply agreesFrom_of_isClosed _ _ htype
    · decide
    · decide
  have hlist : TypeShape.parse "java.util.ArrayList<a.Box2[]>"
      = .parameterized "java.util.ArrayList" ["a.Box2[]"] := by
    decide
  have harray : TypeShape.parse "a.Box2[]" = .array "a.Box2" := by
    decide
  have hbox : TypeShape.parse "a.Box2" = .plain "a.Box2" := by
    decide
  have hint : TypeShape.parse "int" = .plain "int" := by
    decide
  constructor
  · intro f hf
    apply hagrees
    revert f
    decide
  · intro f hf text h
    apply hagrees
    rcases List.mem_pair.1 hf with rfl | rfl
    · cases h with
      | self => decide
      | element hshape => cases hlist.symm.trans hshape
      | argument hshape _ h =>
        cases hlist.symm.trans hshape
        cases h with
        | self => decide
        | element hshape _ h =>
          cases harray.symm.trans hshape
          rw [h.eq_trim_of_plain hbox]
          decide
        | argument hshape => cases harray.symm.trans hshape
    · rw [h.eq_trim_of_plain hint]
      decide

/-- The panel keeps its boxes in the same way, whether the crates are known or not. -/
theorem cargo_depends_on_boxes :
  depot.AgreesOn yard cargo
    ∧ depot.isAssignable "a.Crate" parcelableName = true
    ∧ yard.isAssignable "a.Crate" parcelableName = false
    ∧ (generate ⟨{}, yard⟩ Shelf.reliable cargo).run .empty
      = (generate ⟨{}, depot⟩ Shelf.reliable cargo).run .empty
  := by
  obtain ⟨-, hgenerate⟩ := batch_depends_on_ancestry agreesOn_cargo {}
  refine ⟨agreesOn_cargo, ?_, ?_, ?_⟩
  · apply isAssignable_depot_crate
  · rw [isAssignable_of_find?_eq_none (by decide)]
    decide
  · rw [hgenerate Shelf.reliable]

end Generator

end InstanceState
