import FlatSyntax.Lexeme.Basic
import FlatSyntax.Text.Digit

/-!
Numbers: a run of digits and, where a point and a digit follow, a second run after the point.
-/

namespace FlatSyntax.Number

/-- The point and the digits at the start of a text, if it starts with a fraction, and what
follows. -/
def splitFraction : List Char → List Char × List Char
  | '.' :: c :: rest =>
      if Text.isDigit c then
        ('.' :: c :: rest.takeWhile Text.isDigit, rest.dropWhile Text.isDigit)
      else ([], '.' :: c :: rest)
  | text => ([], text)

theorem splitFraction_append (text : List Char) :
    (splitFraction text).1 ++ (splitFraction text).2 = text := by
  unfold splitFraction
  split
  · split <;> simp
  · rfl

/-- Read the longest number that starts with the given digit. -/
def read (first : Char) (rest : List Char) : Reading :=
  let (fraction, after) := splitFraction (rest.dropWhile Text.isDigit)
  .lexeme (.verbatim .number first (rest.takeWhile Text.isDigit ++ fraction)) after

@[simp] theorem source_read (first : Char) (rest : List Char) :
    (read first rest).source = first :: rest := by
  simp [read, Reading.source, Lexeme.verbatim, Lexeme.raw, splitFraction_append]

end FlatSyntax.Number
