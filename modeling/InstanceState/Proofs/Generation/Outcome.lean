import InstanceState.Proofs.Generation.Ledger
import InstanceState.Proofs.Runs
import InstanceState.Proofs.Sink.Faults

/-!
# The outcome of a batch

The report and the artifacts that a batch comes to when no operation of the sink fails, each read
off the whole batch owner by owner.  A run of the batch ends in exactly these.  If the sink has
faults, the owners whose artifacts have faults that happen are left out, and their faults reported.
-/

namespace InstanceState.Generator

open Batch

variable (g : Generator)

/-! ### The description -/

/-- The report of a batch: one name for each published owner, one error for each rejected
field. -/
def reportOf (fields : List Field) : Report where
  written := (published fields).map (g.artifactOf fields)
  rejectedFields := (rejected fields).length
  failedGroups := 0
  skippedGroups := (skipped fields).length
  diagnostics := (rejected fields).map fun f => .ofFieldError ⟨f.owner, f.name, f.violations⟩

/-- The artifacts after a batch: those of the published owners, in order, over the earlier ones. -/
def shelfOf (fields : List Field) (shelf : Shelf) : Shelf :=
  (published fields).foldl
    (fun shelf owner =>
      shelf.insert (g.artifactOf fields owner) (g.companionOf fields owner).source)
    shelf

/-! ### Single owners -/

/-- The fault that happens to the artifact of an owner, if there is one. -/
def faultOf (faults : Text → Option Fault) (fields : List Field) (owner : TypeName) :
    Option Fault :=
  Shelf.fault? faults (g.artifactOf fields owner) (g.companionOf fields owner).source

/-- What comes of publishing the companion of an owner. -/
def entryOf (faults : Text → Option Fault) (fields : List Field) (owner : TypeName) :
    TypeName × Except SinkError Unit :=
  (owner, match g.faultOf faults fields owner with
    | some fault => .error ⟨fault.stage, g.artifactOf fields owner, fault.cause⟩
    | none => .ok ())

/-- The artifacts after the companion of an owner is committed. -/
def commitOf (fields : List Field) (shelf : Shelf) (owner : TypeName) : Shelf :=
  shelf.insert (g.artifactOf fields owner) (g.companionOf fields owner).source

theorem run_publishOwner (faults : Text → Option Fault) (fields : List Field) (owner : TypeName)
    (shelf : Shelf) :
  (g.publishOwner (Shelf.sink faults) fields owner).run shelf
    = (g.entryOf faults fields owner,
        if (g.faultOf faults fields owner).isNone = true then g.commitOf fields shelf owner
        else shelf)
  := by
  rw [publishOwner, StateT.run_bind,
    Shelf.publish_sink faults (g.artifactOf fields owner) (flatten_chunks _), ← faultOf, entryOf]
  cases g.faultOf faults fields owner with
  | none => rfl
  | some fault => rfl

/-! ### Runs -/

/-- The owners whose artifact has a fault that happens, with the fault, in order. -/
def firedOf (faults : Text → Option Fault) (fields : List Field) : List (TypeName × Fault) :=
  (published fields).filterMap fun owner => (g.faultOf faults fields owner).map (owner, ·)

theorem committed_map_entryOf (faults : Text → Option Fault) (fields : List Field)
    (owners : List TypeName) :
  Ledger.committed (owners.map (g.entryOf faults fields))
    = owners.filter fun owner => (g.faultOf faults fields owner).isNone
  := by
  induction owners with
  | nil => rfl
  | cons owner owners ih =>
    rw [List.map_cons, List.filter_cons, ← ih, entryOf]
    cases g.faultOf faults fields owner with
    | none => rfl
    | some fault => rfl

theorem failures_map_entryOf (faults : Text → Option Fault) (fields : List Field) :
  Ledger.failures ((published fields).map (g.entryOf faults fields))
    = (g.firedOf faults fields).map fun f =>
      (f.1, ⟨f.2.stage, g.artifactOf fields f.1, f.2.cause⟩)
  := by
  rw [Ledger.failures, firedOf, List.filterMap_map, List.map_filterMap]
  apply List.filterMap_congr
  intro owner _
  rw [Function.comp_apply, entryOf]
  cases g.faultOf faults fields owner with
  | none => rfl
  | some fault => rfl

/-- A run commits the companions of the owners without a fault, and reports the faults of the
others. -/
theorem run_generate_sink (faults : Text → Option Fault) (fields : List Field) (shelf : Shelf) :
  (g.generate (Shelf.sink faults) fields).run shelf
    = ({ g.reportOf fields with
          written :=
            ((published fields).filter fun owner => (g.faultOf faults fields owner).isNone).map
              (g.artifactOf fields)
          failedGroups := (g.firedOf faults fields).length
          diagnostics := (g.reportOf fields).diagnostics
            ++ (g.firedOf faults fields).map fun f =>
              .ofSinkError f.1 ⟨f.2.stage, g.artifactOf fields f.1, f.2.cause⟩ },
        ((published fields).filter fun owner => (g.faultOf faults fields owner).isNone).foldl
          (g.commitOf fields) shelf)
  := by
  -- what comes of an owner does not depend on the shelf, so the ledger is a map over the owners
  have hrun := run_mapM_eq (fun owner (_ : owner ∈ published fields) shelf =>
    g.run_publishOwner faults fields owner shelf) shelf
  rw [generate_eq, StateT.run_map, hrun, List.foldl_filter]
  apply congrArg (·, _)
  rw [settle, committed_map_entryOf, failures_map_entryOf, List.length_map, List.map_map, reportOf,
    intakeReport]
  simp only [Nat.zero_add, List.nil_append]
  rfl

theorem run_generate_reliable (fields : List Field) (shelf : Shelf) :
  (g.generate Shelf.reliable fields).run shelf = (g.reportOf fields, g.shelfOf fields shelf)
  := by
  have hfired : g.firedOf (fun _ => none) fields = [] := by
    apply List.filterMap_eq_nil_iff.2
    intro owner _
    rfl
  have hpublished : (published fields).filter
      (fun owner => (g.faultOf (fun _ => none) fields owner).isNone) = published fields := by
    apply List.filter_eq_self.2
    intro owner _
    rfl
  rw [Shelf.reliable, run_generate_sink, hfired, hpublished, List.map_nil, List.append_nil]
  rfl

/-- A run without faults of the sink ends in the report and the artifacts that the batch
describes, owner by owner; the owners are all owners of the batch, and come in the order of the
octets of their names. -/
theorem generate_eq_description (fields : List Field) (shelf : Shelf) :
  (g.generate Shelf.reliable fields).run shelf = (g.reportOf fields, g.shelfOf fields shelf)
    ∧ (owners fields).Pairwise (fun a b => Utf8.encode a.text < Utf8.encode b.text)
    ∧ ∀ owner, owner ∈ owners fields ↔ ∃ f ∈ fields, f.owner = owner
  := by
  constructor
  · apply run_generate_reliable
  · constructor
    · apply owners_pairwise
    · intro owner
      apply mem_owners_iff

end InstanceState.Generator
