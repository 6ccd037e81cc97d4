import FlatSyntax.Diagnostic
import FlatSyntax.Text.Lines

/-!
Cursors: a place in a source text with the text after it. The offset, the line and the column are
kept up to date character by character; only a line feed starts a new line.
-/

namespace FlatSyntax

structure Cursor where
  /-- The text after the cursor. -/
  rest : List Char
  offset : Nat := 0
  line : Int := 1
  column : Nat := 1
  /-- The source text from the start of the cursor's line. -/
  lineText : List Char := rest
  /-- Whether the text before the cursor ends in a word that was read as a token. -/
  afterWord : Bool := false
deriving DecidableEq, Repr

namespace Cursor

/-- The cursor before the first character of a source text whose first line has the given number. -/
def start (source : List Char) (line : Int) : Cursor :=
  { rest := source, line }

def position (cursor : Cursor) : Position :=
  { line := cursor.line, column := cursor.column }

/-- Move over one character; at the end of the text stay. -/
def advance (cursor : Cursor) : Cursor :=
  match cursor.rest with
  | [] => cursor
  | c :: rest =>
      if c = '\n' then
        { rest, offset := cursor.offset + 1, line := cursor.line + 1, column := 1,
          lineText := rest }
      else
        { rest, offset := cursor.offset + 1, line := cursor.line, column := cursor.column + 1,
          lineText := cursor.lineText }

/-- Move over a number of characters. -/
def advanceBy : (count : Nat) → Cursor → Cursor
  | 0, cursor => cursor
  | count + 1, cursor => advanceBy count cursor.advance

/-- The characters that separate tokens. -/
def isGap (c : Char) : Bool :=
  c == ' ' || c == '\t' || c == '\r' || c == '\n'

/-- Move to the next character that is no gap. -/
def skipGap (cursor : Cursor) : Cursor :=
  cursor.advanceBy (cursor.rest.takeWhile isGap).length

/-- The source line that the cursor stands in. -/
def sourceLine (cursor : Cursor) : List Char :=
  Text.sourceLine cursor.lineText

/-- How many characters from the cursor on a problem is said to span. Where something was opened and
not closed on its line, that is the rest of the line. -/
def span (cursor : Cursor) : Problem → Nat
  | .unterminatedString _ | .unterminatedGroup .. => max (Text.sourceLine cursor.rest).length 1
  | .unterminatedComment => 2
  | _ => 1

/-- The diagnostic of a problem at the cursor. -/
def diagnose (file : String) (cursor : Cursor) (problem : Problem) : Diagnostic :=
  { problem,
    location := some
      { file, line := cursor.line, column := cursor.column, length := cursor.span problem },
    sourceLine := some (String.ofList cursor.sourceLine) }

@[simp] theorem rest_advance (cursor : Cursor) : cursor.advance.rest = cursor.rest.tail := by
  unfold advance
  split
  · simp_all
  · split <;> simp_all

@[simp] theorem rest_advanceBy (count : Nat) (cursor : Cursor) :
    (cursor.advanceBy count).rest = cursor.rest.drop count := by
  induction count generalizing cursor with
  | zero => rfl
  | succ count ih => simp [advanceBy, ih]

theorem rest_skipGap (cursor : Cursor) :
    cursor.skipGap.rest = cursor.rest.dropWhile isGap := by
  unfold skipGap
  rw [rest_advanceBy]
  generalize cursor.rest = text
  induction text with
  | nil => rfl
  | cons c rest ih => by_cases hGap : isGap c <;> simp [hGap, ih]

theorem rest_skipGap_length_le (cursor : Cursor) :
    cursor.skipGap.rest.length ≤ cursor.rest.length := by
  unfold skipGap
  simp

theorem skipGap_of_gap {cursor : Cursor} {c : Char} {rest : List Char}
    (hRest : cursor.rest = c :: rest) (hGap : isGap c = true) :
    cursor.skipGap = cursor.advance.skipGap := by
  unfold skipGap
  rw [rest_advance, hRest, List.takeWhile_cons_of_pos hGap]
  rfl

theorem skipGap_of_not_gap {cursor : Cursor} {c : Char} {rest : List Char}
    (hRest : cursor.rest = c :: rest) (hGap : isGap c = false) : cursor.skipGap = cursor := by
  unfold skipGap
  rw [hRest, List.takeWhile_cons_of_neg (by simp [hGap])]
  rfl

end Cursor

end FlatSyntax
