import InstanceState.Proofs.Generation.Placement
import InstanceState.Proofs.Source.Rendering

/-!
# Declared places

A companion's file lies where its source says: in the directory of the package that it declares,
under the name of the class that it declares.  The name of the artifact has its last dot between
the two, since neither a class name nor an accepted suffix holds a dot.
-/

namespace InstanceState

open SourceStep

/-! ### Names of artifacts -/

theorem Layout.dot_not_mem_companionName (l : Layout) {suffix : Text} (h : '.' ∉ suffix) :
  '.' ∉ l.companionName suffix
  := by
  rw [companionName, List.mem_append, not_or]
  exact ⟨l.dot_not_mem_flattenedPath, h⟩

/-- The last dot of an artifact's name stands between the package and the companion. -/
theorem Layout.cutLast?_artifactName (l : Layout) {suffix : Text} (h : '.' ∉ suffix) :
  Text.cutLast? '.' (l.artifactName suffix)
    = l.package.map fun package => (package, l.companionName suffix)
  := by
  rw [artifactName]
  cases l.package with
  | none => apply Text.cutLast?_eq_none_iff.2 (l.dot_not_mem_companionName h)
  | some package =>
    apply Text.cutLast?_eq_some_iff.2
    exact ⟨List.append_assoc _ _ _, l.dot_not_mem_companionName h⟩

/-- The path of an artifact: the segments of the package, and the file of the companion. -/
theorem ArtifactDirectory.pathOf_artifactName (d : ArtifactDirectory) (l : Layout) {suffix : Text}
    (h : '.' ∉ suffix) :
  d.pathOf (l.artifactName suffix)
    = Path.push ((l.package.toList.flatMap (Text.pieces '.')).foldl Path.push d.root)
      (l.companionName suffix ++ ".java")
  := by
  have hfile : l.companionName suffix ++ "." ++ sourceExtension
      = l.companionName suffix ++ ".java" := List.append_assoc _ _ _
  rw [pathOf, pathWith, l.cutLast?_artifactName h, ← hfile]
  cases hpackage : l.package with
  | none =>
    have hartifact : l.artifactName suffix = l.companionName suffix := by
      rw [Layout.artifactName, hpackage]
    rw [hartifact]
    rfl
  | some package =>
    rw [Option.toList_some, List.flatMap_singleton]
    rfl

/-! ### What a source declares -/

namespace Companion

/-- The line that declares a package. -/
def packageLine (package : Text) : Text := "package " ++ package ++ ";"

/-- The line that imports a type. -/
def importLine (name : Text) : Text := "import " ++ name ++ ";"

/-- The line that begins a class. -/
def classLine (name : Text) : Text := "public class " ++ name ++ " \x7b"

/-- The lines with which a source begins that declares the given package and class. -/
def declarationLines (package : Option Text) (imports : List Text) (name : Text) : List Text :=
  header :: package.toList.map packageLine ++ [] :: imports.map importLine ++ [[], classLine name]

theorem sourceLines_map_line_append (texts : List Text) (rest : List SourceStep) :
  sourceLines 0 (texts.map .line ++ rest) = texts ++ sourceLines 0 rest
  := by
  rw [sourceLines_append_of_isBalanced (isBalanced_lines texts), sourceLines_map_line]
  congr 1
  apply List.map_id

theorem sourceLines_preamble (c : Companion) :
  sourceLines 0 c.preamble
    = header :: c.layout.package.toList.map packageLine
      ++ [] :: c.lifecycle.imports.map importLine ++ [[]]
  := by
  have hpreamble : c.preamble
      = .line header :: ((c.layout.package.toList.map packageLine).map .line
        ++ .blank :: ((c.lifecycle.imports.map importLine).map .line ++ [.blank])) := by
    rw [preamble, List.map_map, List.map_map]
    simp only [List.cons_append, List.append_assoc]
    rfl
  rw [hpreamble, sourceLines, depthAfter, sourceLines_map_line_append, sourceLines, depthAfter,
    sourceLines_map_line_append]
  simp only [List.cons_append, List.append_assoc]
  rfl

/-- A source begins with the declarations of its package and of its class. -/
theorem exists_source_eq (c : Companion) :
  ∃ rest, c.source
    = (declarationLines c.layout.package c.lifecycle.imports (c.layout.companionName c.suffix)
      ++ rest).flatMap (· ++ ['\n'])
  := by
  use sourceLines 1 (c.constantSteps ++ c.saveMethod ++ .blank :: c.restoreMethod
    ++ [.closeBlock])
  rw [source, sourceText, flatten_sourceChunks, steps,
    sourceLines_append_of_isBalanced c.isBalanced_preamble, sourceLines_preamble, block,
    sourceLines, depthAfter, declarationLines]
  simp only [List.cons_append, List.append_assoc]
  rfl

end Companion

/-- A companion's source begins with lines that declare the package of its layout, unless that is
the default package, and its class.  Its file is the one of that class in the directory of that
package: the segments of the package are pushed on the root in order, and then the name of the class
with the extension.  So the last dot of the artifact's name stands between the two. -/
theorem pathOf_matches_declaration {settings : GeneratorSettings} (hsettings : settings.fault? = none)
    (d : ArtifactDirectory) (owner : TypeName) (declared : Option Text) {c : Companion}
    (hlayout : c.layout = owner.layout declared) (hsuffix : c.suffix = settings.suffix) :
  (∃ rest, c.source
      = (Companion.declarationLines (owner.layout declared).package c.lifecycle.imports
        ((owner.layout declared).companionName settings.suffix) ++ rest).flatMap (· ++ ['\n']))
    ∧ c.artifact = (owner.layout declared).artifactName settings.suffix
    ∧ d.pathOf c.artifact
      = Path.push (((owner.layout declared).package.toList.flatMap (Text.pieces '.')).foldl Path.push
          d.root)
        ((owner.layout declared).companionName settings.suffix ++ ".java")
    ∧ Text.cutLast? '.' c.artifact
      = (owner.layout declared).package.map fun package =>
        (package, (owner.layout declared).companionName settings.suffix)
  := by
  have hdot : '.' ∉ settings.suffix := by
    apply GeneratorSettings.not_mem_suffix hsettings
    decide
  rw [← hlayout, ← hsuffix] at *
  refine ⟨c.exists_source_eq, rfl, ?_, ?_⟩
  · apply d.pathOf_artifactName c.layout hdot
  · apply c.layout.cutLast?_artifactName hdot

/-- The companion of a nested class. -/
def innerCompanion : Companion where
  layout := TypeName.layout ⟨"a.b.Outer.Inner"⟩ (some "a.b")
  suffix := "$$Icicle"
  namespaceKeys := false
  family := .host
  fields := [⟨{ name := "x", declaredType := "int", owner := ⟨"a.b.Outer.Inner"⟩ }, .plain .int⟩]

/-- The companion of a nested class lies in the directory of the package of its outer class. -/
theorem innerCompanion_path :
  ({} : GeneratorSettings).fault? = none
    ∧ innerCompanion.suffix = ({} : GeneratorSettings).suffix
    ∧ (∃ rest, innerCompanion.source
      = ([↑"// Generated by icicle. Do not modify!", ↑"package a.b;", [],
          ↑"import android.os.Bundle;", [], ↑"public class Outer$Inner$$Icicle \x7b"]
        ++ rest).flatMap (· ++ ['\n']))
    ∧ ArtifactDirectory.pathOf ⟨"out"⟩ innerCompanion.artifact
      = ↑"out/a/b/Outer$Inner$$Icicle.java"
  := by
  have hsettings : ({} : GeneratorSettings).fault? = none := by
    decide
  obtain ⟨hsource, -, hpath, -⟩ := pathOf_matches_declaration hsettings ⟨"out"⟩
    ⟨"a.b.Outer.Inner"⟩ (some "a.b") (c := innerCompanion) rfl rfl
  have hlines : Companion.declarationLines
      (TypeName.layout ⟨"a.b.Outer.Inner"⟩ (some "a.b")).package innerCompanion.lifecycle.imports
      ((TypeName.layout ⟨"a.b.Outer.Inner"⟩ (some "a.b")).companionName
        ({} : GeneratorSettings).suffix)
      = [↑"// Generated by icicle. Do not modify!", ↑"package a.b;", [],
          ↑"import android.os.Bundle;", [], ↑"public class Outer$Inner$$Icicle \x7b"] := by
    decide
  rw [hlines] at hsource
  use hsettings, rfl, hsource
  apply hpath.trans
  decide

end InstanceState
