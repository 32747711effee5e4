import InstanceState.Proofs.Layout
import InstanceState.Proofs.Source.LiteralEnds
import InstanceState.Proofs.Source.Statements

/-!
# The lines of a companion

The source text of a companion, cut into lines, is what stands before the first method, the lines
of its two methods and the end of the class.  This is so if nothing that the text is made from
holds the end of a line; the literals never do.
-/

namespace InstanceState

open SourceStep

/-! ### Lines of statements -/

namespace Statement

/-- The lines of a statement outside of every block. -/
def lines (s : Statement) : List Text := sourceLines 0 s.steps

theorem isBalanced_steps (s : Statement) :
  IsBalanced s.steps
  := by
  intro depth
  cases s <;> rfl

theorem sourceLines_guard (depth : Nat) (opening text : Text) :
  sourceLines depth (Companion.block opening [.line text])
    = [opening ++ " \x7b", "  " ++ text, ['\x7d']].map (margin depth ++ ·)
  := by
  have hbalanced : IsBalanced [.line text] := isBalanced_lines [text]
  rw [sourceLines_block hbalanced, sourceLines, lineAt, margin_succ]
  simp [sourceLines]

theorem sourceLines_steps (depth : Nat) (s : Statement) :
  sourceLines depth s.steps = s.lines.map (margin depth ++ ·)
  := by
  rw [lines]
  cases s with
  | guardNull =>
    rw [steps, sourceLines_guard, sourceLines_guard, List.map_map]
    rfl
  | guardBundle =>
    rw [steps, sourceLines_guard, sourceLines_guard, List.map_map]
    rfl
  | _ => rfl

theorem sourceLines_flatMap_steps (depth : Nat) (body : List Statement) :
  sourceLines depth (body.flatMap steps) = (body.flatMap lines).map (margin depth ++ ·)
    ∧ IsBalanced (body.flatMap steps)
  := by
  induction body with
  | nil => exact ⟨rfl, fun _ => rfl⟩
  | cons s body ih =>
    obtain ⟨hlines, hbalanced⟩ := ih
    rw [List.flatMap_cons, sourceLines_append_of_isBalanced s.isBalanced_steps, sourceLines_steps,
      hlines, List.flatMap_cons, List.map_append]
    exact ⟨rfl, s.isBalanced_steps.append hbalanced⟩

end Statement

namespace Companion

/-! ### Lines of methods -/

/-- The lines of a method of a class. -/
def methodLines (signature : Text) (body : List Statement) : List Text :=
  (margin 1 ++ (signature ++ " \x7b"))
    :: ((body.flatMap Statement.lines).map (margin 2 ++ ·) ++ [margin 1 ++ ['\x7d']])

theorem sourceLines_method (signature : Text) (body : List Statement) :
  sourceLines 1 (block signature (body.flatMap Statement.steps)) = methodLines signature body
  := by
  obtain ⟨hlines, hbalanced⟩ := Statement.sourceLines_flatMap_steps 2 body
  rw [sourceLines_block hbalanced, hlines, methodLines]

theorem isBalanced_method (signature : Text) (body : List Statement) :
  IsBalanced (block signature (body.flatMap Statement.steps))
  := (Statement.sourceLines_flatMap_steps 0 body).2.block signature

/-- The signature of the saving method. -/
def saveSignature (c : Companion) : Text := c.lifecycle.saveSignature.fill c.layout.qualified

/-- The signature of the restoring method. -/
def restoreSignature (c : Companion) : Text := c.lifecycle.restoreSignature.fill c.layout.qualified

/-- The lines before the first method. -/
def openingLines (c : Companion) : List Text :=
  sourceLines 0 (c.preamble ++ .openBlock ("public class " ++ c.layout.companionName c.suffix)
    :: c.constantSteps)

/-- The lines of the saving method. -/
def saveLines (c : Companion) : List Text := methodLines c.saveSignature c.saveBody

/-- The lines of the restoring method. -/
def restoreLines (c : Companion) : List Text := methodLines c.restoreSignature c.restoreBody

theorem isBalanced_preamble (c : Companion) :
  IsBalanced c.preamble
  := by
  apply isBalanced_of_forall
  intro s hs depth
  rw [preamble] at hs
  simp only [List.cons_append, List.mem_cons, List.mem_append, List.mem_map, List.not_mem_nil,
    or_false] at hs
  rcases hs with rfl | (⟨_, -, rfl⟩ | (rfl | ⟨_, -, rfl⟩)) | rfl <;> rfl

theorem isBalanced_constantSteps (c : Companion) :
  IsBalanced c.constantSteps
  := by
  rw [constantSteps]
  split
  · intro depth
    rfl
  · apply (isBalanced_lines c.constants).append
    intro depth
    rfl

/-- The lines of a companion: what comes before its methods, the methods with a blank line between
them, and the end of the class. -/
theorem sourceLines_steps (c : Companion) :
  sourceLines 0 c.steps = c.openingLines ++ c.saveLines ++ [[]] ++ c.restoreLines ++ [['\x7d']]
  := by
  have hsave : IsBalanced (c.constantSteps ++ c.saveMethod) := by
    rw [saveMethod_eq]
    apply c.isBalanced_constantSteps.append (isBalanced_method _ _)
  have hrestore : IsBalanced (.blank :: c.restoreMethod) := by
    rw [restoreMethod_eq]
    apply isBalanced_method
  have hblank : sourceLines 1 (.blank :: c.restoreMethod) = [] :: c.restoreLines := by
    rw [sourceLines, restoreMethod_eq, depthAfter, sourceLines_method]
    rfl
  have hopening : c.openingLines = sourceLines 0 c.preamble
      ++ (margin 0 ++ ("public class " ++ c.layout.companionName c.suffix ++ " \x7b"))
        :: sourceLines 1 c.constantSteps := by
    rw [openingLines, sourceLines_append_of_isBalanced c.isBalanced_preamble]
    rfl
  rw [steps, sourceLines_append_of_isBalanced c.isBalanced_preamble,
    sourceLines_block (hsave.append hrestore), sourceLines_append_of_isBalanced hsave, hblank,
    sourceLines_append_of_isBalanced c.isBalanced_constantSteps, saveMethod_eq, sourceLines_method,
    hopening, saveLines, saveSignature]
  simp [margin, indentation]

end Companion

/-! ### Companions without the end of a line in them -/

/-- A layout whose names do not hold the end of a line. -/
structure Layout.IsFlat (l : Layout) : Prop where
  qualified : '\n' ∉ l.qualified
  package : ∀ package ∈ l.package, '\n' ∉ package
  classPath : '\n' ∉ l.classPath

/-- The layout of a name without the end of a line. -/
theorem TypeName.isFlat_layout {name : TypeName} (h : '\n' ∉ name.text) (declared : Option Text) :
  (name.layout declared).IsFlat
  := by
  have hrejoined := rejoined_layout name declared
  rw [Layout.rejoined] at hrejoined
  constructor
  · rw [qualified_layout]
    exact h
  · intro package hpackage
    rw [Option.mem_def] at hpackage
    rw [hpackage] at hrejoined
    intro hmem
    apply h
    rw [← hrejoined]
    simp [hmem]
  · intro hmem
    apply h
    rw [← hrejoined]
    cases (name.layout declared).package with
    | none => exact hmem
    | some package => simp [hmem]

/-- A companion that is made from texts that do not hold the end of a line. -/
structure Companion.IsFlat (c : Companion) : Prop where
  layout : c.layout.IsFlat
  suffix : '\n' ∉ c.suffix
  names : ∀ f ∈ c.fields, '\n' ∉ f.name
  types : ∀ f ∈ c.fields, ∀ type ∈ f.command.typeArgument, '\n' ∉ type

/-- The texts of a lifecycle. -/
def Lifecycle.texts (l : Lifecycle) : List Text :=
  l.imports ++ l.savePrologue ++ l.saveEpilogue ++ l.restorePrologue ++ l.restoreEpilogue
    ++ [l.saveSignature.before, l.saveSignature.after, l.restoreSignature.before,
      l.restoreSignature.after, l.guardCondition, l.guardExit]

namespace Companion

variable {c : Companion}

/-- The texts of a lifecycle do not hold the end of a line. -/
theorem newline_not_mem_of_mem_texts (c : Companion) {t : Text} (h : t ∈ c.lifecycle.texts) :
  '\n' ∉ t
  := by
  have htexts : ∀ family, ∀ t ∈ (Lifecycle.ofFamily family).texts, '\n' ∉ t := by
    intro family
    cases family with
    | host => simp [Lifecycle.texts, Lifecycle.ofFamily, Lifecycle.host]
    | view => simp [Lifecycle.texts, Lifecycle.ofFamily, Lifecycle.view]
  apply htexts c.family t h

theorem newline_not_mem_fill (h : c.IsFlat) {signature : Signature}
    (hbefore : signature.before ∈ c.lifecycle.texts)
    (hafter : signature.after ∈ c.lifecycle.texts) :
  '\n' ∉ signature.fill c.layout.qualified
  := by
  rw [Signature.fill, List.mem_append, List.mem_append, not_or, not_or]
  use ⟨c.newline_not_mem_of_mem_texts hbefore, h.layout.qualified⟩
  apply c.newline_not_mem_of_mem_texts hafter

theorem newline_not_mem_keyExpression (c : Companion) (name : Text) :
  '\n' ∉ c.keyExpression name
  := by
  have hquote := Literal.newline_not_mem_quote name
  unfold keyExpression Lifecycle.baseKeyName
  split
  · simp [hquote]
  · exact hquote

theorem newline_not_mem_accessor (kind : CommandKind) :
  '\n' ∉ kind.accessor
  := by
  cases kind <;> decide

theorem newline_not_mem_castText {k : Command} (h : ∀ type ∈ k.typeArgument, '\n' ∉ type) :
  '\n' ∉ k.castText
  := by
  rw [Command.castText]
  split
  · rename_i type htype _
    simp [h type htype]
  · rename_i type htype _
    simp [h type htype]
  · apply List.not_mem_nil

theorem newline_not_mem_witnessText {k : Command} (h : ∀ type ∈ k.typeArgument, '\n' ∉ type) :
  '\n' ∉ k.witnessText
  := by
  rw [Command.witnessText]
  split
  · rename_i type htype _
    simp [h type htype]
  · apply List.not_mem_nil

theorem newline_not_mem_saveStatement (h : c.IsFlat) {f : SavedField} (hf : f ∈ c.fields) :
  '\n' ∉ c.saveStatement f
  := by
  have haccessor := newline_not_mem_accessor f.command.kind
  have hkey := newline_not_mem_keyExpression c f.name
  have hname := h.names f hf
  rw [saveStatement, Command.storage_eq]
  simp [haccessor, hkey, hname]

theorem newline_not_mem_restoreStatement (h : c.IsFlat) {f : SavedField} (hf : f ∈ c.fields) :
  '\n' ∉ c.restoreStatement f
  := by
  have haccessor := newline_not_mem_accessor f.command.kind
  have hkey := newline_not_mem_keyExpression c f.name
  have hname := h.names f hf
  have hcast := newline_not_mem_castText (h.types f hf)
  have hwitness := newline_not_mem_witnessText (h.types f hf)
  unfold restoreStatement fieldExpression
  rw [Command.retrieval_eq]
  simp [haccessor, hkey, hname, hcast, hwitness]

theorem isFlat_preamble (h : c.IsFlat) :
  ∀ s ∈ c.preamble, s.IsFlat
  := by
  intro s hs
  rw [preamble] at hs
  simp only [List.cons_append, List.mem_cons, List.mem_append, List.mem_map, List.not_mem_nil,
    or_false, Option.mem_toList] at hs
  rcases hs with rfl | (⟨package, hpackage, rfl⟩ | (rfl | ⟨name, hname, rfl⟩)) | rfl
  · have hheader : '\n' ∉ header := by
      decide
    exact hheader
  · have hname := h.layout.package package hpackage
    simp [SourceStep.IsFlat, hname]
  · trivial
  · have hname : '\n' ∉ name := by
      apply c.newline_not_mem_of_mem_texts
      simp [Lifecycle.texts, hname]
    simp [SourceStep.IsFlat, hname]
  · trivial

theorem newline_not_mem_constants (c : Companion) :
  ∀ t ∈ c.constants, '\n' ∉ t
  := by
  have hconstant : ∀ name value, '\n' ∉ name → '\n' ∉ constant name value := by
    intro name value hname
    have hquote := Literal.newline_not_mem_quote value
    unfold constant
    simp [hname, hquote]
  intro t ht
  rw [constants, List.mem_append] at ht
  rcases ht with ht | ht
  · split at ht
    · rw [List.mem_singleton.1 ht]
      apply hconstant
      decide
    · contradiction
  · split at ht
    · rw [List.mem_singleton.1 ht]
      apply hconstant
      decide
    · contradiction

theorem isFlat_constantSteps (c : Companion) :
  ∀ s ∈ c.constantSteps, s.IsFlat
  := by
  intro s hs
  rw [constantSteps] at hs
  split at hs
  · contradiction
  · rw [List.mem_append, List.mem_singleton] at hs
    rcases hs with hs | rfl
    · apply isFlat_lines c.newline_not_mem_constants s hs
    · trivial

theorem isFlat_body {prologue epilogue : List Text} {text : SavedField → Text}
    (hprologue : ∀ t ∈ prologue, t ∈ c.lifecycle.texts)
    (hfields : ∀ f ∈ c.fields, '\n' ∉ text f)
    (hepilogue : ∀ t ∈ epilogue, t ∈ c.lifecycle.texts) :
  ∀ s ∈ (prologue ++ c.fields.map text ++ epilogue).map SourceStep.line, s.IsFlat
  := by
  apply isFlat_lines
  intro t ht
  rw [List.mem_append, List.mem_append, List.mem_map] at ht
  rcases ht with (ht | ⟨f, hf, rfl⟩) | ht
  · apply c.newline_not_mem_of_mem_texts (hprologue t ht)
  · apply hfields f hf
  · apply c.newline_not_mem_of_mem_texts (hepilogue t ht)

theorem isFlat_saveMethod (h : c.IsFlat) :
  ∀ s ∈ c.saveMethod, s.IsFlat
  := by
  rw [saveMethod]
  apply isFlat_block
  · apply newline_not_mem_fill h
    · simp [Lifecycle.texts]
    · simp [Lifecycle.texts]
  · apply isFlat_body _ (fun f => newline_not_mem_saveStatement h) _
    · intro t ht
      simp [Lifecycle.texts, ht]
    · intro t ht
      simp [Lifecycle.texts, ht]

theorem isFlat_restoreMethod (h : c.IsFlat) :
  ∀ s ∈ c.restoreMethod, s.IsFlat
  := by
  rw [restoreMethod]
  apply isFlat_block
  · apply newline_not_mem_fill h
    · simp [Lifecycle.texts]
    · simp [Lifecycle.texts]
  · intro s hs
    rw [List.mem_append] at hs
    rcases hs with hs | hs
    · apply isFlat_block _ _ s hs
      · have hcondition : '\n' ∉ c.lifecycle.guardCondition := by
          apply c.newline_not_mem_of_mem_texts
          simp [Lifecycle.texts]
        simp [hcondition]
      · intro s hs
        rw [List.mem_singleton.1 hs]
        apply c.newline_not_mem_of_mem_texts
        simp [Lifecycle.texts]
    · apply isFlat_body _ (fun f => newline_not_mem_restoreStatement h) _ s hs
      · intro t ht
        simp [Lifecycle.texts, ht]
      · intro t ht
        simp [Lifecycle.texts, ht]

theorem isFlat_steps (h : c.IsFlat) :
  ∀ s ∈ c.steps, s.IsFlat
  := by
  have hpath : '\n' ∉ Text.substitute '.' '$' c.layout.classPath := by
    rw [Text.substitute, List.mem_map]
    rintro ⟨d, hd, hnewline⟩
    split at hnewline
    · cases hnewline
    · rw [hnewline] at hd
      apply h.layout.classPath hd
  have hclass : '\n' ∉ ("public class " ++ c.layout.companionName c.suffix : Text) := by
    simp [Layout.companionName, hpath, h.suffix]
  intro s hs
  rw [steps, List.mem_append] at hs
  rcases hs with hs | hs
  · apply isFlat_preamble h s hs
  · apply isFlat_block hclass _ s hs
    intro s hs
    rw [List.mem_append, List.mem_append, List.mem_cons] at hs
    rcases hs with (hs | hs) | rfl | hs
    · apply isFlat_constantSteps c s hs
    · apply isFlat_saveMethod h s hs
    · trivial
    · apply isFlat_restoreMethod h s hs

/-- The source text of a companion is cut into its lines again. -/
theorem pieces_source (h : c.IsFlat) :
  Text.pieces '\n' c.source
    = c.openingLines ++ c.saveLines ++ [[]] ++ c.restoreLines ++ [['\x7d'], []]
  := by
  rw [source, pieces_sourceText (isFlat_steps h), sourceLines_steps, List.append_assoc]
  rfl

end Companion

end InstanceState
