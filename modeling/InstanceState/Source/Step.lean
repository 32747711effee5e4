import InstanceState.Text.Basic

/-!
# Indented source text

A source text is written in steps: a line, a blank line, the beginning and the end of a block.
Each line is indented by two spaces for each open block.  `chunks` gives the pieces in which the
text is handed to a writer, and `sourceText` all of them together.
-/

namespace InstanceState

/-- One step of writing a source text. -/
inductive SourceStep where
  | line (text : Text)
  | blank
  /-- A line that ends in an opening brace; the lines after it are inside. -/
  | openBlock (header : Text)
  /-- A closing brace on a line of its own, outside of the block. -/
  | closeBlock
deriving DecidableEq, Repr

namespace SourceStep

/-- The indentation of a line inside `depth` blocks. -/
def indentation (depth : Nat) : List Text := List.replicate depth "  "

/-- The end of a line. -/
def newline : Text := "\n"

/-- The number of open blocks after a step. -/
def depthAfter (depth : Nat) : SourceStep → Nat
  | .line _ | .blank => depth
  | .openBlock _ => depth + 1
  | .closeBlock => depth - 1

/-- The pieces of text of a step inside `depth` blocks. -/
def chunks (depth : Nat) : SourceStep → List Text
  | .line text => indentation depth ++ [text, newline]
  | .blank => [newline]
  | .openBlock header => indentation depth ++ [header ++ " \x7b", newline]
  | .closeBlock => indentation (depth - 1) ++ [['\x7d'], newline]

/-- The text of a step inside `depth` blocks. -/
def text (depth : Nat) (s : SourceStep) : Text := (s.chunks depth).flatten

end SourceStep

/-- The pieces of text of the steps, the first of them inside `depth` blocks. -/
def sourceChunks (depth : Nat) : List SourceStep → List Text
  | [] => []
  | s :: rest => s.chunks depth ++ sourceChunks (s.depthAfter depth) rest

/-- The text that the steps write. -/
def sourceText (steps : List SourceStep) : Text := (sourceChunks 0 steps).flatten

end InstanceState
