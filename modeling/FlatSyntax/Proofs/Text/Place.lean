import FlatSyntax.Proofs.Lexeme.Comment
import FlatSyntax.Source.Location

/-! Places in a source text, each given by its offset. The line of a place is told by the line feeds
before it and its column by the last of these, so a later place has a later position. -/
namespace FlatSyntax

/-- Strict reading order. -/
def Position.Before (a b : Position) : Prop :=
  a.line < b.line ∨ a.line = b.line ∧ a.column < b.column

theorem Position.Before.trans {a b c : Position} (hFirst : a.Before b) (hSecond : b.Before c) :
    a.Before c := by
  unfold Before at *
  omega

namespace Text

/-- The offset at which the line of a place starts: after the last line feed before the place, or at
the start of the text. -/
def lineStart (text : List Char) : (offset : Nat) → Nat
  | 0 => 0
  | offset + 1 => if text[offset]? = some '\n' then offset + 1 else lineStart text offset

/-- How many line feeds stand before a place. -/
def lineFeedsBefore (text : List Char) (offset : Nat) : Nat :=
  (text.take offset).count '\n'

/-- The position of a place in a text whose first line has the number `first`. -/
def positionAt (text : List Char) (first : Int) (offset : Nat) : Position :=
  { line := first + lineFeedsBefore text offset, column := offset - lineStart text offset + 1 }

variable {text : List Char} {offset : Nat}

theorem lineStart_of_lineFeed (hFeed : text[offset]? = some '\n') :
    lineStart text (offset + 1) = offset + 1 := by
  rw [lineStart, if_pos hFeed]

theorem lineStart_of_ne (hOther : text[offset]? ≠ some '\n') :
    lineStart text (offset + 1) = lineStart text offset := by
  rw [lineStart, if_neg hOther]

theorem lineFeedsBefore_of_lineFeed (hFeed : text[offset]? = some '\n') :
    lineFeedsBefore text (offset + 1) = lineFeedsBefore text offset + 1 := by
  simp [lineFeedsBefore, List.take_add_one, hFeed]

theorem lineFeedsBefore_of_ne (hOther : text[offset]? ≠ some '\n') :
    lineFeedsBefore text (offset + 1) = lineFeedsBefore text offset := by
  rw [lineFeedsBefore, List.take_add_one, List.count_append]
  cases hChar : text[offset]? with
  | none => simp [lineFeedsBefore]
  | some c =>
      have hNe : c ≠ '\n' := by
        rintro rfl
        exact hOther hChar
      simp [lineFeedsBefore, hNe]

/-- A line has no line feed in it, so a place is reached from the start of its line without one. -/
theorem exists_line_before (hOffset : offset ≤ text.length) :
    ∃ before, text.drop (lineStart text offset) = before ++ text.drop offset ∧ '\n' ∉ before ∧
      offset = lineStart text offset + before.length := by
  induction offset with
  | zero => exact ⟨[], rfl, List.not_mem_nil, rfl⟩
  | succ offset ih =>
      have hChar : text[offset]? = some text[offset] := List.getElem?_eq_getElem hOffset
      by_cases hFeed : text[offset]? = some '\n'
      · rw [lineStart_of_lineFeed hFeed]
        exact ⟨[], rfl, List.not_mem_nil, rfl⟩
      · obtain ⟨before, hText, hBefore, hLength⟩ := ih (Nat.le_of_succ_le hOffset)
        have hNe : '\n' ≠ text[offset] := by
          intro hSame
          rw [hChar, ← hSame] at hFeed
          exact hFeed rfl
        rw [lineStart_of_ne hFeed]
        refine ⟨before ++ [text[offset]], ?_, ?_, ?_⟩
        · rw [hText, List.drop_eq_getElem_cons hOffset, List.append_assoc, List.singleton_append]
        · simp [hBefore, hNe]
        · rw [List.length_append, List.length_singleton]
          omega

/-- The place after a character of a line is in the next column of that line. -/
theorem positionAt_succ_of_ne (first : Int) (hOther : text[offset]? ≠ some '\n') :
    positionAt text first (offset + 1) =
      { line := (positionAt text first offset).line
        column := (positionAt text first offset).column + 1 } := by
  simp only [positionAt, lineStart_of_ne hOther, lineFeedsBefore_of_ne hOther, Position.mk.injEq]
  refine ⟨trivial, ?_⟩
  omega

theorem positionAt_before_succ (text : List Char) (first : Int) (offset : Nat) :
    (positionAt text first offset).Before (positionAt text first (offset + 1)) := by
  by_cases hFeed : text[offset]? = some '\n'
  · refine Or.inl ?_
    simp only [positionAt, lineFeedsBefore_of_lineFeed hFeed]
    omega
  · rw [positionAt_succ_of_ne first hFeed]
    exact Or.inr ⟨rfl, Int.lt_succ _⟩

/-- Reading order is the order of the offsets. -/
theorem positionAt_before (text : List Char) (first : Int) {a b : Nat} (hOrder : a < b) :
    (positionAt text first a).Before (positionAt text first b) := by
  induction hOrder with
  | refl => exact positionAt_before_succ text first a
  | step _ ih => exact ih.trans (positionAt_before_succ text first _)

theorem splitOn_lineFeed_head (text : List Char) :
    (text.splitOn '\n')[0]? = some (sourceLine text) := by
  cases hAfter : afterSourceLine text with
  | nil =>
      have hWhole : text = sourceLine text := by
        rw [← List.append_nil (sourceLine text), ← hAfter, sourceLine_append_afterSourceLine]
      rw [List.splitOn_eq_singleton (hWhole ▸ lineFeed_notMem_sourceLine text)]
      exact congrArg some hWhole
  | cons c rest =>
      obtain rfl : c = '\n' := head?_afterSourceLine (by rw [hAfter]; rfl)
      have hText : text = sourceLine text ++ '\n' :: rest := by
        rw [← hAfter, sourceLine_append_afterSourceLine]
      have hSplit := List.splitOn_append_cons_self_of_not_mem (lineFeed_notMem_sourceLine text) rest
      rw [← hText] at hSplit
      rw [hSplit]
      rfl

theorem length_splitOn_lineFeed (text : List Char) :
    (text.splitOn '\n').length = text.count '\n' + 1 := by
  induction text with
  | nil => simp
  | cons c rest ih =>
      rw [List.splitOn_cons_eq_if_modifyHead, List.count_cons]
      split
      · simp [ih]
      · simp [ih]

/-- The lines of a text are counted by the line feeds before them. -/
theorem splitOn_lineFeedsBefore (hOffset : offset ≤ text.length) :
    (text.splitOn '\n')[lineFeedsBefore text offset]? =
      some (sourceLine (text.drop (lineStart text offset))) := by
  induction offset with
  | zero => exact splitOn_lineFeed_head text
  | succ offset ih =>
      by_cases hFeed : text[offset]? = some '\n'
      · have hText : text = text.take offset ++ '\n' :: text.drop (offset + 1) := by
          have hHead : text.drop offset = '\n' :: text.drop (offset + 1) := by
            rw [List.drop_eq_getElem_cons hOffset]
            rw [List.getElem?_eq_getElem hOffset, Option.some.injEq] at hFeed
            rw [hFeed]
          rw [← hHead, List.take_append_drop]
        have hSplit := List.splitOn_append_cons_self (text.take offset) (text.drop (offset + 1))
          (a := '\n')
        rw [← hText] at hSplit
        have hLength : ((text.take offset).splitOn '\n').length =
            lineFeedsBefore text (offset + 1) := by
          rw [length_splitOn_lineFeed, lineFeedsBefore_of_lineFeed hFeed, lineFeedsBefore]
        rw [hSplit, lineStart_of_lineFeed hFeed, ← hLength,
          List.getElem?_append_right (Nat.le_refl _), Nat.sub_self, splitOn_lineFeed_head]
      · rw [lineFeedsBefore_of_ne hFeed, lineStart_of_ne hFeed]
        exact ih (Nat.le_of_succ_le hOffset)

end Text

end FlatSyntax
