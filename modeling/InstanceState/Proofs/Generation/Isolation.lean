import InstanceState.Proofs.Generation.Outcome
import Mathlib.Data.List.Permutation

/-!
# Isolation of faults

A fault of the sink concerns the artifact that has it and nothing else, if the artifacts of the
batch have different names: the artifact keeps what it was before, its name is left out of the
report, and one error more is reported after those of the fields.
-/

namespace InstanceState

open Batch

namespace Generator

variable (g : Generator)

/-- The artifacts that have a fault that happens, in order. -/
def lostOf (faults : Text → Option Fault) (fields : List Field) : List Text :=
  (g.firedOf faults fields).map fun f => g.artifactOf fields f.1

theorem lostOf_eq (faults : Text → Option Fault) (fields : List Field) :
  g.lostOf faults fields
    = ((published fields).filter fun owner => !(g.faultOf faults fields owner).isNone).map
      (g.artifactOf fields)
  := by
  rw [lostOf, firedOf, List.map_filterMap, ← List.filterMap_eq_map, ← List.filterMap_eq_filter,
    List.filterMap_filterMap]
  apply List.filterMap_congr
  intro owner _
  rw [Option.guard_apply]
  cases g.faultOf faults fields owner with
  | none => rfl
  | some fault => rfl

/-- The names of the artifacts whose owners do not fail are those that are not lost. -/
theorem map_artifactOf_filter {fields : List Field}
    (h : ((published fields).map (g.artifactOf fields)).Nodup) (faults : Text → Option Fault) :
  ((published fields).filter fun owner => (g.faultOf faults fields owner).isNone).map
      (g.artifactOf fields)
    = ((published fields).map (g.artifactOf fields)).filter fun name =>
      name ∉ g.lostOf faults fields
  := by
  rw [List.filter_map]
  congr 1
  apply List.filter_congr
  intro owner howner
  rw [Function.comp_apply, lostOf_eq, Bool.eq_iff_iff, decide_eq_true_iff]
  constructor
  · intro hnone hmem
    obtain ⟨owner', howner', hartifact⟩ := List.mem_map.1 hmem
    obtain ⟨howner', hsome⟩ := List.mem_filter.1 howner'
    rw [List.inj_on_of_nodup_map h howner' howner hartifact, hnone] at hsome
    contradiction
  · intro hmem
    by_contra hsome
    apply hmem
    apply List.mem_map_of_mem
    rw [List.mem_filter, Bool.not_eq_true']
    exact ⟨howner, Bool.eq_false_iff.2 hsome⟩

/-- Faults of a sink concern the artifacts that have them and nothing else, if the artifacts of the
batch have different names.  An artifact whose fault happens is what it was before the batch, and
every other artifact is what it is after a run without faults.  The report differs from that of
such a run in that the lost names are left out and counted, and that each of them adds an error of
its owner, after the errors of the fields and in the order of the owners. -/
theorem faults_isolated {fields : List Field}
    (h : ((published fields).map (g.artifactOf fields)).Nodup) (faults : Text → Option Fault)
    (shelf : Shelf) :
  (g.lostOf faults fields).Nodup
    ∧ (∀ name,
      ((g.generate (Shelf.sink faults) fields).run shelf).2.find? name
        = if name ∈ g.lostOf faults fields then shelf.find? name
          else ((g.generate Shelf.reliable fields).run shelf).2.find? name)
    ∧ ((g.generate (Shelf.sink faults) fields).run shelf).1
      = { ((g.generate Shelf.reliable fields).run shelf).1 with
          written := ((g.generate Shelf.reliable fields).run shelf).1.written.filter fun name =>
            name ∉ g.lostOf faults fields
          failedGroups := (g.lostOf faults fields).length
          diagnostics := ((g.generate Shelf.reliable fields).run shelf).1.diagnostics
            ++ (g.firedOf faults fields).map fun f =>
              ⟨.error, .type f.1, "impossible to " ++ f.2.stage.verb ++ " '"
                ++ g.artifactOf fields f.1 ++ "': " ++ f.2.cause⟩ }
  := by
  rw [run_generate_reliable, run_generate_sink]
  refine ⟨?_, ?_, ?_⟩
  · rw [lostOf_eq]
    apply h.sublist (List.filter_sublist.map _)
  · intro name
    rw [lostOf_eq]
    apply Roster.find?_foldl_insert_filter (g.artifactOf fields)
      (fun owner => (g.companionOf fields owner).source) h
  · rw [map_artifactOf_filter g h, lostOf, List.length_map]
    rfl

/-- Fields of four owners. -/
def quartet : List Field :=
  [{ name := "d", declaredType := "int", owner := ⟨"D"⟩ },
   { name := "b", declaredType := "int", owner := ⟨"B"⟩ },
   { name := "c", declaredType := "int", owner := ⟨"C"⟩ },
   { name := "p", declaredType := "int", owner := ⟨"C"⟩, modifiers := { isPrivate := true } },
   { name := "a", declaredType := "int", owner := ⟨"A"⟩ }]

/-- A fault of each kind for the first three owners. -/
def quartetFaults (artifact : Text) : Option Fault :=
  if artifact = "A$$Icicle" then some ⟨.create, 0, "denied"⟩
  else if artifact = "B$$Icicle" then some ⟨.write, 100, "full"⟩
  else if artifact = "C$$Icicle" then some ⟨.commit, 0, "busy"⟩
  else none

/-- Each of the three owners fails at its stage, and what was under its artifact's name before is
still there. -/
theorem quartet_isolated :
  ((published quartet).map (artifactOf ⟨{}, .stock⟩ quartet)).Nodup
    ∧ firedOf ⟨{}, .stock⟩ quartetFaults quartet
      = [(⟨"A"⟩, ⟨.create, 0, "denied"⟩), (⟨"B"⟩, ⟨.write, 100, "full"⟩),
         (⟨"C"⟩, ⟨.commit, 0, "busy"⟩)]
    ∧ ∃ report shelf,
      (generate ⟨{}, .stock⟩ (Shelf.sink quartetFaults) quartet).run
          (Roster.insert .empty "B$$Icicle" "old") = (report, shelf)
        ∧ report.written = [↑"D$$Icicle"] ∧ report.failedGroups = 3
        ∧ shelf.find? "A$$Icicle" = none ∧ shelf.find? "B$$Icicle" = some ↑"old"
  := by
  have hnodup : ((published quartet).map (artifactOf ⟨{}, .stock⟩ quartet)).Nodup := by
    apply nodup_artifacts
    decide
  have hpublished : published quartet = [⟨"A"⟩, ⟨"B"⟩, ⟨"C"⟩, ⟨"D"⟩] := by
    cbv
  have hhost : TypeGraph.stock.isAssignable "B" "android.view.View" = false := by
    cbv
  have hview : ¬ ∃ base ∈ ({} : GeneratorSettings).viewBases,
      TypeGraph.stock.isAssignable "B" base = true := by
    rintro ⟨base, hbase, hview⟩
    rw [List.mem_singleton.1 hbase, hhost] at hview
    contradiction
  have hcompanion : companionOf ⟨{}, .stock⟩ quartet ⟨"B"⟩
      = { companionOf ⟨{ viewBases := [] }, .stock⟩ quartet ⟨"B"⟩ with family := .host } := by
    rw [companionOf, if_neg hview]
    rfl
  have hcreate : faultOf ⟨{}, .stock⟩ quartetFaults quartet ⟨"A"⟩
      = some ⟨.create, 0, "denied"⟩ := by
    decide +kernel
  have hwrite : faultOf ⟨{}, .stock⟩ quartetFaults quartet ⟨"B"⟩ = some ⟨.write, 100, "full"⟩ := by
    rw [faultOf, hcompanion]
    decide +kernel
  have hcommit : faultOf ⟨{}, .stock⟩ quartetFaults quartet ⟨"C"⟩
      = some ⟨.commit, 0, "busy"⟩ := by
    decide +kernel
  have hnone : faultOf ⟨{}, .stock⟩ quartetFaults quartet ⟨"D"⟩ = none := by
    decide +kernel
  have hfired : firedOf ⟨{}, .stock⟩ quartetFaults quartet
      = [(⟨"A"⟩, ⟨.create, 0, "denied"⟩), (⟨"B"⟩, ⟨.write, 100, "full"⟩),
         (⟨"C"⟩, ⟨.commit, 0, "busy"⟩)] := by
    simp only [firedOf, hpublished, List.filterMap_cons, hcreate, hwrite, hcommit, hnone,
      Option.map_some, Option.map_none, List.filterMap_nil]
  have hlost : lostOf ⟨{}, .stock⟩ quartetFaults quartet
      = [↑"A$$Icicle", ↑"B$$Icicle", ↑"C$$Icicle"] := by
    rw [lostOf, hfired]
    decide
  obtain ⟨-, hfind, hreport⟩ := faults_isolated ⟨{}, .stock⟩ hnodup quartetFaults
    (Roster.insert .empty "B$$Icicle" "old")
  rw [hlost, run_generate_reliable] at hreport
  rw [hlost] at hfind
  rcases hrun : (generate ⟨{}, .stock⟩ (Shelf.sink quartetFaults) quartet).run
    (Roster.insert .empty "B$$Icicle" "old") with ⟨report, shelf⟩
  rw [hrun] at hfind hreport
  dsimp only at hfind hreport
  use hnodup, hfired, report, shelf, rfl
  refine ⟨?_, ?_, ?_, ?_⟩
  · rw [hreport, reportOf, hpublished]
    decide
  · rw [hreport]
    rfl
  · rw [hfind]
    decide
  · rw [hfind]
    decide

end Generator

end InstanceState
