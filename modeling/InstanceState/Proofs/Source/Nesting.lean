import InstanceState.Proofs.Source.Lines
import Mathlib.Data.List.Induction

/-!
# Nested blocks

Steps are nested if they close the blocks that they open, and no block before it is open.  Then the
depth is what the steps before add up to, and the end of a block is never written outside of every
block.  The lines of nested steps show the blocks again, as long as the text of no line looks like
the beginning or the end of a block.
-/

namespace InstanceState

/-! ### Nested steps -/

namespace SourceStep

/-- Whether a step begins a block. -/
def opens : SourceStep → Bool
  | .openBlock _ => true
  | _ => false

/-- Whether a step ends a block. -/
def closes : SourceStep → Bool
  | .closeBlock => true
  | _ => false

end SourceStep

open SourceStep

/-- Steps that close each block they open.  The first of them never close more blocks than they
open, and all of them close as many. -/
structure IsNested (steps : List SourceStep) : Prop where
  countP_closes_le : ∀ k, (steps.take k).countP closes ≤ (steps.take k).countP opens
  countP_closes_eq : steps.countP closes = steps.countP opens

/-- The depth is the one at the beginning, with the blocks that were opened and not closed. -/
theorem foldl_depthAfter_add {steps : List SourceStep}
    (h : ∀ k, (steps.take k).countP closes ≤ (steps.take k).countP opens) (depth : Nat) :
  steps.foldl depthAfter depth + steps.countP closes = depth + steps.countP opens
  := by
  induction steps using List.reverseRecOn with
  | nil => rfl
  | append_singleton steps s ih =>
    have hsteps : ∀ k, (steps.take k).countP closes ≤ (steps.take k).countP opens := by
      intro k
      have hk := h (min k steps.length)
      rw [List.take_append_of_le_length (Nat.min_le_right _ _)] at hk
      rw [List.take_eq_take_min]
      exact hk
    have hdepth := ih hsteps
    have hall := h (steps.length + 1)
    rw [List.take_of_length_le (by simp)] at hall
    rw [List.countP_append, List.countP_append, List.countP_singleton, List.countP_singleton] at *
    rw [List.foldl_append, List.foldl_cons, List.foldl_nil]
    cases s <;> simp only [depthAfter, opens, closes, if_true, Bool.false_eq_true, if_false] at *
    all_goals omega

namespace IsNested

variable {steps before after body : List SourceStep}

theorem depth_take (h : IsNested steps) (depth k : Nat) :
  (steps.take k).foldl depthAfter depth + (steps.take k).countP closes
    = depth + (steps.take k).countP opens
  := by
  apply foldl_depthAfter_add
  intro j
  rw [List.take_take]
  apply h.countP_closes_le

/-- Nested steps end at the depth at which they begin. -/
theorem isBalanced (h : IsNested steps) :
  IsBalanced steps
  := by
  intro depth
  have hdepth := foldl_depthAfter_add h.countP_closes_le depth
  rw [h.countP_closes_eq] at hdepth
  exact Nat.add_right_cancel hdepth

/-- Where nested steps end a block, there is one that they have begun. -/
theorem lt_depth_of_closeBlock (h : IsNested steps) (depth : Nat) {k : Nat}
    (hclose : steps[k]? = some .closeBlock) :
  depth < (steps.take k).foldl depthAfter depth
  := by
  have hdepth := h.depth_take depth k
  have hnext := h.countP_closes_le (k + 1)
  rw [List.take_add_one, hclose, Option.toList_some, List.countP_append,
    List.countP_append] at hnext
  have hclosed : [closeBlock].countP closes = 1 := rfl
  have hopened : [closeBlock].countP opens = 0 := rfl
  omega

/-! ### How steps are nested -/

theorem append (hbefore : IsNested before) (hafter : IsNested after) :
  IsNested (before ++ after)
  where
  countP_closes_le k := by
    rw [List.take_append, List.countP_append, List.countP_append]
    exact Nat.add_le_add (hbefore.countP_closes_le k) (hafter.countP_closes_le _)
  countP_closes_eq := by
    rw [List.countP_append, List.countP_append, hbefore.countP_closes_eq, hafter.countP_closes_eq]

/-- Steps that neither begin nor end a block. -/
theorem of_plain (h : ∀ s ∈ steps, s.opens = false ∧ s.closes = false) :
  IsNested steps
  := by
  have hcloses : steps.countP closes = 0 := by
    rw [List.countP_eq_zero]
    intro s hs
    simp [h s hs]
  have hopens : steps.countP opens = 0 := by
    rw [List.countP_eq_zero]
    intro s hs
    simp [h s hs]
  constructor
  · intro k
    have htake := (List.take_sublist k steps).countP_le (p := closes)
    rw [hcloses] at htake
    exact Nat.le_trans htake (Nat.zero_le _)
  · rw [hcloses, hopens]

theorem lines (texts : List Text) :
  IsNested (texts.map .line)
  := by
  apply of_plain
  intro s hs
  obtain ⟨text, -, rfl⟩ := List.mem_map.1 hs
  exact ⟨rfl, rfl⟩

/-- Inside of a block there is always one more open than the nested steps in it have opened. -/
theorem countP_take_block (h : IsNested body) (opening : Text) {k : Nat} (hk : k ≤ body.length) :
  ((Companion.block opening body).take (k + 1)).countP closes
    < ((Companion.block opening body).take (k + 1)).countP opens
  := by
  rw [Companion.block, List.take_succ_cons, List.take_append_of_le_length hk,
    List.countP_cons_of_neg (by simp [closes]), List.countP_cons_of_pos (by rfl)]
  exact Nat.lt_succ_of_le (h.countP_closes_le k)

theorem block (h : IsNested body) (opening : Text) :
  IsNested (Companion.block opening body)
  := by
  have hcount : (Companion.block opening body).countP closes
      = (Companion.block opening body).countP opens := by
    rw [Companion.block, List.countP_cons, List.countP_cons, List.countP_append,
      List.countP_append, h.countP_closes_eq]
    rfl
  constructor
  · intro k
    rcases Nat.lt_or_ge k (body.length + 2) with hlt | hge
    · cases k with
      | zero => exact Nat.le_refl _
      | succ k => exact Nat.le_of_lt (h.countP_take_block opening (by omega))
    · have hlength : (Companion.block opening body).length ≤ k := by
        rw [Companion.block, List.length_cons, List.length_append, List.length_singleton]
        exact hge
      rw [List.take_of_length_le hlength]
      exact Nat.le_of_eq hcount
  · exact hcount

/-- Where a block follows plain steps, the depth is back at zero after its last step only. -/
theorem length_eq_of_closeBlock {front : List SourceStep} {opening : Text} {k : Nat}
    (hfront : ∀ s ∈ front, s.opens = false ∧ s.closes = false) (hbody : IsNested body)
    (hclose : (front ++ Companion.block opening body)[k]? = some .closeBlock)
    (hzero : ((front ++ Companion.block opening body).take (k + 1)).foldl depthAfter 0 = 0) :
  (front ++ Companion.block opening body).length = k + 1
  := by
  have hplain := of_plain hfront
  have hlt := (List.getElem?_eq_some_iff.1 hclose).1
  have hfrom : front.length ≤ k := by
    rcases Nat.lt_or_ge k front.length with hk | hk
    · rw [List.getElem?_append_left hk] at hclose
      obtain ⟨-, hcloses⟩ := hfront _ (List.mem_of_getElem? hclose)
      cases hcloses
    · exact hk
  obtain ⟨j, rfl⟩ := Nat.exists_eq_add_of_le hfrom
  rcases Nat.lt_or_ge body.length j with hj | hj
  · rw [List.length_append, Companion.block, List.length_cons, List.length_append,
      List.length_singleton] at *
    omega
  · have hdepth := (hplain.append (hbody.block opening)).depth_take 0 (front.length + j + 1)
    have hinside := hbody.countP_take_block opening hj
    rw [hzero, Nat.add_assoc, List.take_length_add_append, List.countP_append, List.countP_append,
      hplain.countP_closes_eq] at hdepth
    omega

end IsNested

/-! ### Lines that show blocks -/

namespace Text

/-- Whether a line begins a block: it ends in an opening brace after a space. -/
def opensBlock (line : Text) : Bool := (" \x7b" : Text).isSuffixOf line

/-- Whether a line ends a block: it is a closing brace after spaces. -/
def closesBlock (line : Text) : Bool := line.dropWhile (· = ' ') = ['\x7d']

/-- How many more blocks the lines begin than they end. -/
def nesting (lines : List Text) : Int := lines.countP opensBlock - lines.countP closesBlock

/-- Lines that are indented by their blocks.  Their nesting is never negative and ends at zero, and
each line that is not empty begins with two spaces for each open block, of which the end of a block
is outside. -/
structure AreNested (lines : List Text) : Prop where
  nesting_nonneg : ∀ k, 0 ≤ nesting (lines.take k)
  nesting_eq_zero : nesting lines = 0
  indented : ∀ (k : Nat) (line : Text), lines[k]? = some line → line ≠ [] →
    ∃ (depth : Nat) (c : Char) (text : Text),
      (depth : Int) = (if line.closesBlock then nesting (lines.take (k + 1))
        else nesting (lines.take k))
      ∧ line = List.replicate (2 * depth) ' ' ++ c :: text ∧ c ≠ ' '

/-- A text that does not look like the beginning or the end of a block, wherever its line begins. -/
def IsPlain (text : Text) : Prop :=
  (∃ c ∈ text.head?, c ≠ ' ' ∧ c ≠ '\x7d') ∧ ∃ c ∈ text.getLast?, c ≠ '\x7b'

theorem isPlain_iff {text : Text} :
  (text.head?.any (fun c => c != ' ' && c != '\x7d') = true
      ∧ text.getLast?.any (fun c => c != '\x7b') = true)
    ↔ IsPlain text
  := by
  simp [IsPlain, Option.any_eq_true]

instance (text : Text) : Decidable (IsPlain text) := decidable_of_iff _ isPlain_iff

/-- What a statement ends in keeps it plain. -/
theorem isPlain_append_semicolon {text : Text} {c : Char} (hhead : c ∈ text.head?)
    (hspace : c ≠ ' ') (hbrace : c ≠ '\x7d') :
  IsPlain (text ++ ";")
  := by
  obtain ⟨text, rfl⟩ := List.head?_eq_some_iff.1 hhead
  use ⟨c, rfl, hspace, hbrace⟩, ';'
  rw [Option.mem_def, List.getLast?_append]
  exact ⟨rfl, by decide⟩

theorem margin_eq_replicate (depth : Nat) :
  margin depth = List.replicate (2 * depth) ' '
  := by
  induction depth with
  | zero => rfl
  | succ depth ih => rw [margin_succ, ih, Nat.mul_succ, List.replicate_add]; rfl

theorem dropWhile_margin_append (depth : Nat) {c : Char} (hc : c ≠ ' ') (text : Text) :
  (margin depth ++ c :: text).dropWhile (· = ' ') = c :: text
  := by
  have hmargin : ∀ d ∈ margin depth, decide (d = ' ') = true := by
    intro d hd
    rw [margin_eq_replicate] at hd
    rw [List.eq_of_mem_replicate hd]
    rfl
  rw [List.dropWhile_append_of_pos hmargin, List.dropWhile_cons_of_neg (by simpa using hc)]

theorem opensBlock_eq_false {line : Text} {c : Char} (hlast : c ∈ line.getLast?)
    (hc : c ≠ '\x7b') :
  line.opensBlock = false
  := by
  rw [opensBlock, Bool.eq_false_iff]
  intro hsuffix
  obtain ⟨front, rfl⟩ := List.isSuffixOf_iff_suffix.1 hsuffix
  apply hc
  simpa [eq_comm] using hlast

theorem closesBlock_eq_false (depth : Nat) {c : Char} (hspace : c ≠ ' ') (hbrace : c ≠ '\x7d')
    (text : Text) :
  (margin depth ++ c :: text).closesBlock = false
  := by
  rw [closesBlock, dropWhile_margin_append depth hspace, decide_eq_false_iff_not]
  intro h
  exact hbrace (List.cons.inj h).1

end Text

open Text

/-! ### Lines of nested steps -/

namespace SourceStep

/-- A step whose line shows what it is. -/
def IsLegible : SourceStep → Prop
  | .line text => IsPlain text
  | .openBlock header => ∃ c ∈ header.head?, c ≠ ' ' ∧ c ≠ '\x7d'
  | .blank | .closeBlock => True

variable {s : SourceStep}

/-- The line of a legible step begins or ends a block exactly if the step does. -/
theorem IsLegible.lineAt_shows (h : s.IsLegible) (depth : Nat) :
  (s.lineAt depth).opensBlock = s.opens ∧ (s.lineAt depth).closesBlock = s.closes
  := by
  cases s with
  | line text =>
    obtain ⟨⟨c, hhead, hspace, hbrace⟩, d, hlast, hd⟩ := h
    obtain ⟨text, rfl⟩ := List.head?_eq_some_iff.1 hhead
    constructor
    · apply opensBlock_eq_false (c := d) _ hd
      rw [lineAt, Option.mem_def, List.getLast?_append, Option.mem_def.1 hlast]
      rfl
    · apply closesBlock_eq_false depth hspace hbrace
  | blank => exact ⟨rfl, rfl⟩
  | openBlock header =>
    obtain ⟨c, hhead, hspace, hbrace⟩ := h
    obtain ⟨header, rfl⟩ := List.head?_eq_some_iff.1 hhead
    constructor
    · rw [lineAt, opensBlock, ← List.append_assoc]
      apply List.isSuffixOf_iff_suffix.2 (List.suffix_append _ _)
    · apply closesBlock_eq_false depth hspace hbrace
  | closeBlock =>
    constructor
    · apply opensBlock_eq_false (c := '\x7d')
      · rw [lineAt, Option.mem_def, List.getLast?_append]
        rfl
      · decide
    · rw [lineAt, closesBlock, dropWhile_margin_append _ (by decide)]
      rfl

end SourceStep

/-- The lines of steps that neither begin nor end a block do not either. -/
theorem not_shows_of_mem_sourceLines {steps : List SourceStep}
    (hlegible : ∀ s ∈ steps, s.IsLegible)
    (hplain : ∀ s ∈ steps, s.opens = false ∧ s.closes = false) {depth : Nat} {line : Text}
    (hline : line ∈ sourceLines depth steps) :
  line.opensBlock = false ∧ line.closesBlock = false
  := by
  induction steps generalizing depth with
  | nil => contradiction
  | cons s steps ih =>
    rw [sourceLines, List.mem_cons] at hline
    rcases hline with rfl | hline
    · obtain ⟨hopens, hcloses⟩ := (hlegible s List.mem_cons_self).lineAt_shows depth
      rw [hopens, hcloses]
      exact hplain s List.mem_cons_self
    · exact ih (fun s' hs' => hlegible s' (List.mem_cons_of_mem _ hs'))
        (fun s' hs' => hplain s' (List.mem_cons_of_mem _ hs')) hline

theorem take_sourceLines (depth k : Nat) (steps : List SourceStep) :
  (sourceLines depth steps).take k = sourceLines depth (steps.take k)
  := by
  induction steps generalizing depth k with
  | nil => simp [sourceLines]
  | cons s steps ih =>
    cases k with
    | zero => rfl
    | succ k => rw [sourceLines, List.take_succ_cons, ih, List.take_succ_cons, sourceLines]

theorem getElem?_sourceLines (depth k : Nat) (steps : List SourceStep) :
  (sourceLines depth steps)[k]?
    = steps[k]?.map (lineAt ((steps.take k).foldl depthAfter depth))
  := by
  induction steps generalizing depth k with
  | nil => rfl
  | cons s steps ih =>
    cases k with
    | zero => rfl
    | succ k => rw [sourceLines, List.getElem?_cons_succ, ih]; rfl

theorem length_sourceLines (depth : Nat) (steps : List SourceStep) :
  (sourceLines depth steps).length = steps.length
  := by
  induction steps generalizing depth with
  | nil => rfl
  | cons s steps ih => rw [sourceLines, List.length_cons, ih, List.length_cons]

theorem nesting_sourceLines {steps : List SourceStep} (h : ∀ s ∈ steps, s.IsLegible)
    (depth : Nat) :
  nesting (sourceLines depth steps) = steps.countP opens - steps.countP closes
  := by
  induction steps generalizing depth with
  | nil => rfl
  | cons s steps ih =>
    obtain ⟨hopens, hcloses⟩ := (h s List.mem_cons_self).lineAt_shows depth
    have hrest := ih (fun s' hs' => h s' (List.mem_cons_of_mem _ hs')) (s.depthAfter depth)
    rw [nesting] at *
    rw [sourceLines, List.countP_cons, List.countP_cons, hopens, hcloses, List.countP_cons,
      List.countP_cons]
    omega

/-- The nesting of the first lines is the depth after their steps. -/
theorem IsNested.nesting_take_sourceLines {steps : List SourceStep} (h : IsNested steps)
    (hlegible : ∀ s ∈ steps, s.IsLegible) (k : Nat) :
  nesting ((sourceLines 0 steps).take k) = (steps.take k).foldl depthAfter 0
  := by
  have hdepth := h.depth_take 0 k
  rw [take_sourceLines, nesting_sourceLines fun s hs => hlegible s (List.mem_of_mem_take hs)]
  omega

/-- The lines of nested steps are nested if each of them shows what its step is. -/
theorem IsNested.areNested_sourceLines {steps : List SourceStep} (h : IsNested steps)
    (hlegible : ∀ s ∈ steps, s.IsLegible) :
  AreNested (sourceLines 0 steps)
  := by
  have hnesting := h.nesting_take_sourceLines hlegible
  constructor
  · intro k
    rw [hnesting]
    apply Int.natCast_nonneg
  · rw [nesting_sourceLines hlegible, h.countP_closes_eq, Int.sub_self]
  · intro k line hline hne
    rw [getElem?_sourceLines, Option.map_eq_some_iff] at hline
    obtain ⟨s, hs, rfl⟩ := hline
    have hs' := hlegible s (List.mem_of_getElem? hs)
    have hnext : (steps.take (k + 1)).foldl depthAfter 0
        = s.depthAfter ((steps.take k).foldl depthAfter 0) := by
      rw [List.take_add_one, hs, List.foldl_append]
      rfl
    rw [(hs'.lineAt_shows _).2, hnesting, hnesting, hnext]
    simp only [← margin_eq_replicate]
    cases s with
    | line text =>
      obtain ⟨⟨c, hhead, hspace, -⟩, -⟩ := hs'
      obtain ⟨text, rfl⟩ := List.head?_eq_some_iff.1 hhead
      exact ⟨_, c, text, rfl, rfl, hspace⟩
    | blank => contradiction
    | openBlock header =>
      obtain ⟨c, hhead, hspace, -⟩ := hs'
      obtain ⟨header, rfl⟩ := List.head?_eq_some_iff.1 hhead
      exact ⟨_, c, header ++ " \x7b", rfl, rfl, hspace⟩
    | closeBlock => exact ⟨_, '\x7d', [], rfl, rfl, by decide⟩

end InstanceState
