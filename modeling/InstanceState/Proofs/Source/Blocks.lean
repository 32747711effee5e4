import InstanceState.Proofs.Source.Nesting
import InstanceState.Proofs.Source.Rendering

/-!
# The blocks of a companion

The source text of a companion is indented by its blocks: the class, its two methods and the guard
with which the second of them begins.  The fields may have any names and types, for each statement
begins with a letter and ends in a semicolon.
-/

namespace InstanceState

open SourceStep Text

/-- The line that begins a block. -/
def openingLine (depth : Nat) (header : Text) : Text := margin depth ++ (header ++ " \x7b")

/-- The line that ends a block. -/
def closingLine (depth : Nat) : Text := margin depth ++ ['\x7d']

theorem isLegible_lines {texts : List Text} (h : ∀ t ∈ texts, IsPlain t) :
  ∀ s ∈ texts.map SourceStep.line, s.IsLegible
  := List.forall_mem_map.2 h

theorem isLegible_block {opening : Text} {body : List SourceStep}
    (h : (SourceStep.openBlock opening).IsLegible) (hbody : ∀ s ∈ body, s.IsLegible) :
  ∀ s ∈ Companion.block opening body, s.IsLegible
  := forall_mem_block h hbody trivial

namespace Companion

/-! ### The lines inside of the methods -/

/-- The lines inside of the saving method. -/
def saveTexts (c : Companion) : List Text :=
  c.lifecycle.savePrologue ++ c.fields.map c.saveStatement ++ c.lifecycle.saveEpilogue

/-- The lines inside of the restoring method, after its guard. -/
def restoreTexts (c : Companion) : List Text :=
  c.lifecycle.restorePrologue ++ c.fields.map c.restoreStatement ++ c.lifecycle.restoreEpilogue

/-- The header of the class. -/
def classHeader (c : Companion) : Text := "public class " ++ c.layout.companionName c.suffix

/-- The header of the guard. -/
def guardHeader (c : Companion) : Text := "if (" ++ c.lifecycle.guardCondition ++ ")"

theorem isPlain_saveStatement (c : Companion) (f : SavedField) :
  IsPlain (c.saveStatement f)
  := isPlain_append_semicolon (c := 'o') rfl (by decide) (by decide)

theorem isPlain_restoreStatement (c : Companion) (f : SavedField) :
  IsPlain (c.restoreStatement f)
  := isPlain_append_semicolon (c := 't') rfl (by decide) (by decide)

theorem isPlain_fixedTexts (family : Family) :
  IsPlain (Lifecycle.ofFamily family).guardExit
    ∧ (∀ t ∈ (Lifecycle.ofFamily family).savePrologue, IsPlain t)
    ∧ (∀ t ∈ (Lifecycle.ofFamily family).saveEpilogue, IsPlain t)
    ∧ (∀ t ∈ (Lifecycle.ofFamily family).restorePrologue, IsPlain t)
    ∧ ∀ t ∈ (Lifecycle.ofFamily family).restoreEpilogue, IsPlain t
  := by
  cases family <;> decide

theorem isPlain_of_mem_body {c : Companion} {prologue epilogue : List Text}
    {text : SavedField → Text} (hprologue : ∀ t ∈ prologue, IsPlain t)
    (htext : ∀ f, IsPlain (text f)) (hepilogue : ∀ t ∈ epilogue, IsPlain t) :
  ∀ t ∈ prologue ++ c.fields.map text ++ epilogue, IsPlain t
  := by
  intro t ht
  rw [List.mem_append, List.mem_append, List.mem_map] at ht
  rcases ht with (ht | ⟨f, -, rfl⟩) | ht
  · exact hprologue t ht
  · exact htext f
  · exact hepilogue t ht

theorem isPlain_of_mem_saveTexts (c : Companion) :
  ∀ t ∈ c.saveTexts, IsPlain t
  := by
  obtain ⟨-, hprologue, hepilogue, -⟩ := isPlain_fixedTexts c.family
  exact isPlain_of_mem_body hprologue c.isPlain_saveStatement hepilogue

theorem isPlain_of_mem_restoreTexts (c : Companion) :
  ∀ t ∈ c.restoreTexts, IsPlain t
  := by
  obtain ⟨-, -, -, hprologue, hepilogue⟩ := isPlain_fixedTexts c.family
  exact isPlain_of_mem_body hprologue c.isPlain_restoreStatement hepilogue

/-! ### The steps -/

theorem preamble_plain (c : Companion) :
  ∀ s ∈ c.preamble, s.IsLegible ∧ s.opens = false ∧ s.closes = false
  := by
  intro s hs
  rw [preamble] at hs
  simp only [List.cons_append, List.mem_cons, List.mem_append, List.mem_map, List.not_mem_nil,
    or_false] at hs
  rcases hs with rfl | (⟨package, -, rfl⟩ | (rfl | ⟨name, -, rfl⟩)) | rfl
  · have hheader : IsPlain header := by
      decide
    exact ⟨hheader, rfl, rfl⟩
  · exact ⟨isPlain_append_semicolon (c := 'p') rfl (by decide) (by decide), rfl, rfl⟩
  · exact ⟨trivial, rfl, rfl⟩
  · exact ⟨isPlain_append_semicolon (c := 'i') rfl (by decide) (by decide), rfl, rfl⟩
  · exact ⟨trivial, rfl, rfl⟩

theorem isPlain_of_mem_constants (c : Companion) :
  ∀ t ∈ c.constants, IsPlain t
  := by
  have hconstant : ∀ name value, IsPlain (constant name value) := by
    intro name value
    exact isPlain_append_semicolon (c := 'p') rfl (by decide) (by decide)
  intro t ht
  rw [constants, List.mem_append] at ht
  rcases ht with ht | ht
  · split at ht
    · rw [List.mem_singleton.1 ht]
      apply hconstant
    · contradiction
  · split at ht
    · rw [List.mem_singleton.1 ht]
      apply hconstant
    · contradiction

theorem constantSteps_plain (c : Companion) :
  ∀ s ∈ c.constantSteps, s.IsLegible ∧ s.opens = false ∧ s.closes = false
  := by
  intro s hs
  rw [constantSteps] at hs
  split at hs
  · contradiction
  · rw [List.mem_append, List.mem_singleton, List.mem_map] at hs
    rcases hs with ⟨t, ht, rfl⟩ | rfl
    · exact ⟨c.isPlain_of_mem_constants t ht, rfl, rfl⟩
    · exact ⟨trivial, rfl, rfl⟩

/-- The steps inside of the class. -/
def classSteps (c : Companion) : List SourceStep :=
  c.constantSteps ++ c.saveMethod ++ .blank :: c.restoreMethod

theorem isNested_saveMethod (c : Companion) :
  IsNested c.saveMethod
  := (IsNested.lines _).block _

theorem isNested_restoreMethod (c : Companion) :
  IsNested c.restoreMethod
  := (((IsNested.lines [c.lifecycle.guardExit]).block c.guardHeader).append
    (IsNested.lines _)).block _

theorem isNested_classSteps (c : Companion) :
  IsNested c.classSteps
  := by
  have hconstants : IsNested c.constantSteps :=
    .of_plain fun s hs => (c.constantSteps_plain s hs).2
  have hblank : IsNested [.blank] := by
    apply IsNested.of_plain
    decide
  exact (hconstants.append c.isNested_saveMethod).append (hblank.append c.isNested_restoreMethod)

theorem isNested_steps (c : Companion) :
  IsNested c.steps
  := by
  have hpreamble : IsNested c.preamble := .of_plain fun s hs => (c.preamble_plain s hs).2
  exact hpreamble.append (c.isNested_classSteps.block c.classHeader)

theorem isLegible_saveMethod (c : Companion) :
  ∀ s ∈ c.saveMethod, s.IsLegible
  := by
  have hsignature : (openBlock c.saveSignature).IsLegible := by
    rw [saveSignature, lifecycle]
    cases c.family
    · exact ⟨'p', rfl, by decide⟩
    · exact ⟨'p', rfl, by decide⟩
  exact isLegible_block hsignature (isLegible_lines c.isPlain_of_mem_saveTexts)

theorem isLegible_restoreMethod (c : Companion) :
  ∀ s ∈ c.restoreMethod, s.IsLegible
  := by
  have hsignature : (openBlock c.restoreSignature).IsLegible := by
    rw [restoreSignature, lifecycle]
    cases c.family
    · exact ⟨'p', rfl, by decide⟩
    · exact ⟨'p', rfl, by decide⟩
  have hguard : ∀ s ∈ block c.guardHeader [.line c.lifecycle.guardExit], s.IsLegible := by
    apply isLegible_block ⟨'i', rfl, by decide⟩
    intro s hs
    rw [List.mem_singleton.1 hs]
    exact (isPlain_fixedTexts c.family).1
  apply isLegible_block hsignature
  intro s hs
  rcases List.mem_append.1 hs with hs | hs
  · exact hguard s hs
  · exact isLegible_lines c.isPlain_of_mem_restoreTexts s hs

theorem isLegible_steps (c : Companion) :
  ∀ s ∈ c.steps, s.IsLegible
  := by
  have hclass : ∀ s ∈ c.classSteps, s.IsLegible := by
    intro s hs
    rw [classSteps, List.mem_append, List.mem_append, List.mem_cons] at hs
    rcases hs with (hs | hs) | rfl | hs
    · exact (c.constantSteps_plain s hs).1
    · exact c.isLegible_saveMethod s hs
    · trivial
    · exact c.isLegible_restoreMethod s hs
  intro s hs
  rw [steps, List.mem_append] at hs
  rcases hs with hs | hs
  · exact (c.preamble_plain s hs).1
  · exact isLegible_block ⟨'p', rfl, by decide⟩ hclass s hs

/-! ### The lines -/

/-- The lines of a class with two methods, the second of which begins with a guard, by the lines
between those that begin and end a block. -/
def classLines (c : Companion) (front constants saved : List Text) (exit : Text)
    (restored : List Text) : List Text :=
  front
    ++ openingLine 0 c.classHeader :: constants
    ++ openingLine 1 c.saveSignature :: saved ++ [closingLine 1]
    ++ [[]]
    ++ openingLine 1 c.restoreSignature
      :: openingLine 2 c.guardHeader :: exit :: closingLine 2 :: restored ++ [closingLine 1]
    ++ [closingLine 0]

theorem sourceLines_saveMethod (c : Companion) :
  sourceLines 1 c.saveMethod
    = openingLine 1 c.saveSignature
      :: (sourceLines 2 (c.saveTexts.map .line) ++ [closingLine 1])
  := sourceLines_block (isBalanced_lines _) 1 _

theorem sourceLines_restoreMethod (c : Companion) :
  sourceLines 1 c.restoreMethod
    = openingLine 1 c.restoreSignature :: openingLine 2 c.guardHeader
      :: (margin 3 ++ c.lifecycle.guardExit) :: closingLine 2
      :: (sourceLines 2 (c.restoreTexts.map .line) ++ [closingLine 1])
  := by
  have hguard : IsBalanced (block c.guardHeader [.line c.lifecycle.guardExit]) :=
    (isBalanced_lines [c.lifecycle.guardExit]).block c.guardHeader
  have hmethod := sourceLines_block (hguard.append (isBalanced_lines c.restoreTexts)) 1
    c.restoreSignature
  rw [sourceLines_append_of_isBalanced hguard] at hmethod
  exact hmethod

/-- The lines of a companion are those of a class with two methods. -/
theorem sourceLines_steps_eq (c : Companion) :
  sourceLines 0 c.steps
    = c.classLines (sourceLines 0 c.preamble) (sourceLines 1 c.constantSteps)
        (sourceLines 2 (c.saveTexts.map .line)) (margin 3 ++ c.lifecycle.guardExit)
        (sourceLines 2 (c.restoreTexts.map .line))
  := by
  have hclass := sourceLines_block c.isNested_classSteps.isBalanced 0 c.classHeader
  have hsave := c.isBalanced_constantSteps.append c.isNested_saveMethod.isBalanced
  rw [classSteps, sourceLines_append_of_isBalanced hsave,
    sourceLines_append_of_isBalanced c.isBalanced_constantSteps, sourceLines_saveMethod,
    sourceLines, depthAfter, sourceLines_restoreMethod] at hclass
  rw [steps, sourceLines_append_of_isBalanced c.isBalanced_preamble]
  apply (congrArg (sourceLines 0 c.preamble ++ ·) hclass).trans
  simp only [classLines, openingLine, closingLine, lineAt, List.append_assoc, List.cons_append,
    List.nil_append]

theorem plain_of_mem_lines {texts : List Text} (h : ∀ t ∈ texts, IsPlain t) {depth : Nat}
    {line : Text} (hline : line ∈ sourceLines depth (texts.map .line)) :
  line.opensBlock = false ∧ line.closesBlock = false
  := by
  apply not_shows_of_mem_sourceLines (isLegible_lines h) _ hline
  intro s hs
  obtain ⟨t, -, rfl⟩ := List.mem_map.1 hs
  exact ⟨rfl, rfl⟩

/-- The lines of the class between those that begin and end a block. -/
theorem plain_of_mem_classLines (c : Companion) :
  ∀ line ∈ sourceLines 0 c.preamble ++ sourceLines 1 c.constantSteps
      ++ sourceLines 2 (c.saveTexts.map .line)
      ++ (margin 3 ++ c.lifecycle.guardExit) :: sourceLines 2 (c.restoreTexts.map .line),
    line.opensBlock = false ∧ line.closesBlock = false
  := by
  intro line hline
  rw [List.mem_append, List.mem_append, List.mem_append, List.mem_cons] at hline
  rcases hline with ((hline | hline) | hline) | rfl | hline
  · exact not_shows_of_mem_sourceLines (fun s hs => (c.preamble_plain s hs).1)
      (fun s hs => (c.preamble_plain s hs).2) hline
  · exact not_shows_of_mem_sourceLines (fun s hs => (c.constantSteps_plain s hs).1)
      (fun s hs => (c.constantSteps_plain s hs).2) hline
  · exact plain_of_mem_lines c.isPlain_of_mem_saveTexts hline
  · have hexit : (SourceStep.line c.lifecycle.guardExit).IsLegible :=
      (isPlain_fixedTexts c.family).1
    exact hexit.lineAt_shows 3
  · exact plain_of_mem_lines c.isPlain_of_mem_restoreTexts hline

/-- The end of a block after which no block is open is the last line. -/
theorem length_sourceLines_steps (c : Companion) {k : Nat} {line : Text}
    (hline : (sourceLines 0 c.steps)[k]? = some line) (hcloses : line.closesBlock = true)
    (hzero : nesting ((sourceLines 0 c.steps).take (k + 1)) = 0) :
  (sourceLines 0 c.steps).length = k + 1
  := by
  rw [c.isNested_steps.nesting_take_sourceLines c.isLegible_steps] at hzero
  rw [getElem?_sourceLines, Option.map_eq_some_iff] at hline
  obtain ⟨s, hs, rfl⟩ := hline
  rw [((c.isLegible_steps s (List.mem_of_getElem? hs)).lineAt_shows _).2] at hcloses
  have hclose : s = .closeBlock := by
    cases s <;> first | rfl | cases hcloses
  rw [hclose] at hs
  rw [length_sourceLines]
  exact IsNested.length_eq_of_closeBlock (fun s hs => (c.preamble_plain s hs).2)
    c.isNested_classSteps hs (Int.natCast_eq_zero.1 hzero)

/-- The source of every companion whose texts hold no end of a line is indented by its blocks, of
which the class is the last to end.  Inside of the class are two methods, and the second of them
begins with a guard; no other line begins or ends a block.  And whatever steps are nested, they end
at the depth at which they begin, and the end of a block is never written at depth zero. -/
theorem sources_are_nested :
  (∀ c : Companion, c.IsFlat → ∃ lines : List Text,
    Text.pieces '\n' c.source = lines ++ [[]]
      ∧ AreNested lines
      ∧ (∀ (k : Nat) (line : Text), lines[k]? = some line → line.closesBlock = true →
        nesting (lines.take (k + 1)) = 0 → lines.length = k + 1)
      ∧ ∃ (front constants saved : List Text) (exit : Text) (restored : List Text),
        lines = c.classLines front constants saved exit restored
          ∧ ∀ line ∈ front ++ constants ++ saved ++ exit :: restored,
            line.opensBlock = false ∧ line.closesBlock = false)
    ∧ ∀ steps : List SourceStep, IsNested steps → ∀ depth,
      steps.foldl depthAfter depth = depth
        ∧ ∀ k, steps[k]? = some .closeBlock → 0 < (steps.take k).foldl depthAfter depth
  := by
  constructor
  · intro c hflat
    use sourceLines 0 c.steps, pieces_sourceText (isFlat_steps hflat),
      c.isNested_steps.areNested_sourceLines c.isLegible_steps
    exact ⟨fun _ _ => c.length_sourceLines_steps,
      _, _, _, _, _, c.sourceLines_steps_eq, c.plain_of_mem_classLines⟩
  · intro steps h depth
    use h.isBalanced depth
    intro k hclose
    exact Nat.lt_of_le_of_lt (Nat.zero_le depth) (h.lt_depth_of_closeBlock depth hclose)

/-- A view whose names and types hold braces. -/
def bracedView : Companion where
  layout := TypeName.layout ⟨"a.b.Foo \x7b"⟩ none
  suffix := " \x7d"
  namespaceKeys := true
  family := .view
  fields := [⟨⟨"\x7d \x7b", "T \x7b", ⟨"a.b.Foo \x7b"⟩, none, {}⟩, .typed .serializable "T \x7b"⟩]

theorem bracedView_nested :
  bracedView.IsFlat ∧ IsNested bracedView.steps
    ∧ (∃ lines : List Text, Text.pieces '\n' bracedView.source = lines ++ [[]] ∧ AreNested lines)
    ∧ bracedView.steps.foldl depthAfter 3 = 3
  := by
  have hname : '\n' ∉ ("a.b.Foo \x7b" : Text) := by
    decide
  have hflat : bracedView.IsFlat :=
    ⟨TypeName.isFlat_layout hname none, by decide, by decide, by decide⟩
  obtain ⟨hsources, hsteps⟩ := sources_are_nested
  obtain ⟨lines, hlines, hnested, -⟩ := hsources bracedView hflat
  obtain ⟨hdepth, -⟩ := hsteps bracedView.steps bracedView.isNested_steps 3
  exact ⟨hflat, bracedView.isNested_steps, ⟨lines, hlines, hnested⟩, hdepth⟩

end Companion

end InstanceState
