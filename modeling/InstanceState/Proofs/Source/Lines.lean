import InstanceState.Proofs.Text.Pieces
import InstanceState.Source.Companion

/-!
# The lines of a source text

A source text is cut into the lines of its steps again, if no text of a step holds the end of a
line.  A block is a line that opens it, the lines inside of it and a line that closes it.
-/

namespace InstanceState

namespace SourceStep

/-- What a line inside `depth` blocks begins with. -/
def margin (depth : Nat) : Text := (indentation depth).flatten

/-- The line of a step inside `depth` blocks, without its end. -/
def lineAt (depth : Nat) : SourceStep → Text
  | .line text => margin depth ++ text
  | .blank => []
  | .openBlock header => margin depth ++ (header ++ " \x7b")
  | .closeBlock => margin (depth - 1) ++ ['\x7d']

theorem flatten_chunks (depth : Nat) (s : SourceStep) :
  (s.chunks depth).flatten = s.lineAt depth ++ ['\n']
  := by
  cases s <;> simp [chunks, lineAt, margin, newline]

theorem margin_succ (depth : Nat) :
  margin (depth + 1) = margin depth ++ "  "
  := by
  rw [margin, indentation, List.replicate_succ', List.flatten_concat, margin, indentation]

end SourceStep

open SourceStep

/-- The lines of the steps, the first of them inside `depth` blocks. -/
def sourceLines (depth : Nat) : List SourceStep → List Text
  | [] => []
  | s :: rest => s.lineAt depth :: sourceLines (s.depthAfter depth) rest

theorem flatten_sourceChunks (depth : Nat) (steps : List SourceStep) :
  (sourceChunks depth steps).flatten = (sourceLines depth steps).flatMap (· ++ ['\n'])
  := by
  induction steps generalizing depth with
  | nil => rfl
  | cons s rest ih =>
    rw [sourceChunks, List.flatten_append, SourceStep.flatten_chunks, ih, sourceLines,
      List.flatMap_cons]

/-! ### Blocks -/

theorem sourceLines_append (depth : Nat) (before after : List SourceStep) :
  sourceLines depth (before ++ after)
    = sourceLines depth before ++ sourceLines (before.foldl depthAfter depth) after
  := by
  induction before generalizing depth with
  | nil => rfl
  | cons s before ih => rw [List.cons_append, sourceLines, ih, sourceLines, List.foldl_cons,
      List.cons_append]

/-- Steps that close each block they open, and no other. -/
def IsBalanced (steps : List SourceStep) : Prop :=
  ∀ depth, steps.foldl depthAfter depth = depth

theorem IsBalanced.append {before after : List SourceStep} (h : IsBalanced before)
    (h' : IsBalanced after) :
  IsBalanced (before ++ after)
  := by
  intro depth
  rw [List.foldl_append, h, h']

theorem IsBalanced.block {body : List SourceStep} (h : IsBalanced body) (opening : Text) :
  IsBalanced (Companion.block opening body)
  := by
  intro depth
  rw [Companion.block, List.foldl_cons, List.foldl_append, h]
  rfl

/-- Steps that open and close no blocks. -/
theorem isBalanced_of_forall {steps : List SourceStep}
    (h : ∀ s ∈ steps, ∀ depth, depthAfter depth s = depth) :
  IsBalanced steps
  := by
  intro depth
  induction steps with
  | nil => rfl
  | cons s steps ih =>
    rw [List.foldl_cons, h s List.mem_cons_self, ih fun s' hs' => h s' (List.mem_cons_of_mem _ hs')]

theorem isBalanced_lines (texts : List Text) :
  IsBalanced (texts.map .line)
  := by
  apply isBalanced_of_forall
  intro s hs depth
  obtain ⟨text, -, rfl⟩ := List.mem_map.1 hs
  rfl

theorem sourceLines_append_of_isBalanced {before : List SourceStep} (h : IsBalanced before)
    (depth : Nat) (after : List SourceStep) :
  sourceLines depth (before ++ after) = sourceLines depth before ++ sourceLines depth after
  := by
  rw [sourceLines_append, h]

theorem sourceLines_block {body : List SourceStep} (h : IsBalanced body) (depth : Nat)
    (opening : Text) :
  sourceLines depth (Companion.block opening body)
    = (margin depth ++ (opening ++ " \x7b")) :: (sourceLines (depth + 1) body
      ++ [margin depth ++ ['\x7d']])
  := by
  rw [Companion.block, sourceLines, depthAfter, sourceLines_append_of_isBalanced h]
  rfl

theorem sourceLines_map_line (depth : Nat) (texts : List Text) :
  sourceLines depth (texts.map .line) = texts.map (margin depth ++ ·)
  := by
  induction texts with
  | nil => rfl
  | cons text texts ih => rw [List.map_cons, sourceLines, depthAfter, ih, List.map_cons, lineAt]

/-! ### Steps that stand on one line each -/

/-- A step that writes one line. -/
def SourceStep.IsFlat : SourceStep → Prop
  | .line text | .openBlock text => '\n' ∉ text
  | .blank | .closeBlock => True

theorem newline_not_mem_margin (depth : Nat) :
  '\n' ∉ margin depth
  := by
  induction depth with
  | zero => apply List.not_mem_nil
  | succ depth ih =>
    rw [margin_succ, List.mem_append, not_or]
    exact ⟨ih, by decide⟩

theorem SourceStep.IsFlat.newline_not_mem_lineAt {s : SourceStep} (h : s.IsFlat) (depth : Nat) :
  '\n' ∉ s.lineAt depth
  := by
  cases s with
  | line text =>
    rw [lineAt, List.mem_append, not_or]
    exact ⟨newline_not_mem_margin depth, h⟩
  | blank => apply List.not_mem_nil
  | openBlock header =>
    rw [lineAt, List.mem_append, List.mem_append, not_or, not_or]
    exact ⟨newline_not_mem_margin depth, h, by decide⟩
  | closeBlock =>
    rw [lineAt, List.mem_append, not_or]
    exact ⟨newline_not_mem_margin (depth - 1), by decide⟩

theorem newline_not_mem_of_isFlat {steps : List SourceStep} (h : ∀ s ∈ steps, s.IsFlat)
    {depth : Nat} {line : Text} (hline : line ∈ sourceLines depth steps) :
  '\n' ∉ line
  := by
  induction steps generalizing depth with
  | nil => contradiction
  | cons s steps ih =>
    rw [sourceLines, List.mem_cons] at hline
    rcases hline with rfl | hline
    · apply (h s List.mem_cons_self).newline_not_mem_lineAt
    · apply ih (fun s' hs' => h s' (List.mem_cons_of_mem _ hs')) hline

/-- What is true of the beginning of a block, of the steps in it and of its end. -/
theorem forall_mem_block {P : SourceStep → Prop} {opening : Text} {body : List SourceStep}
    (hopening : P (.openBlock opening)) (hbody : ∀ s ∈ body, P s) (hclosing : P .closeBlock) :
  ∀ s ∈ Companion.block opening body, P s
  := by
  intro s hs
  rw [Companion.block, List.mem_cons, List.mem_append, List.mem_singleton] at hs
  rcases hs with rfl | hs | rfl
  · exact hopening
  · exact hbody s hs
  · exact hclosing

theorem isFlat_block {opening : Text} {body : List SourceStep} (h : '\n' ∉ opening)
    (hbody : ∀ s ∈ body, s.IsFlat) :
  ∀ s ∈ Companion.block opening body, s.IsFlat
  := forall_mem_block h hbody trivial

theorem isFlat_lines {texts : List Text} (h : ∀ t ∈ texts, '\n' ∉ t) :
  ∀ s ∈ texts.map SourceStep.line, s.IsFlat
  := List.forall_mem_map.2 h

/-- A source text is cut into the lines of its steps again. -/
theorem pieces_sourceText {steps : List SourceStep} (h : ∀ s ∈ steps, s.IsFlat) :
  Text.pieces '\n' (sourceText steps) = sourceLines 0 steps ++ [[]]
  := by
  have hlines : ∀ line ∈ sourceLines 0 steps, '\n' ∉ line := by
    intro line hline
    apply newline_not_mem_of_isFlat h hline
  rw [sourceText, flatten_sourceChunks, Text.pieces_flatMap hlines]

end InstanceState
