import FlatSyntax.Lexeme.Read
import FlatSyntax.Proofs.Lexeme.Group

/-! What the faults of a reading point at. The text at a fault starts with the characters that the
problem is about, and these lie on one line. -/
namespace FlatSyntax

/-- The characters on a line that a problem marks, with those after them. What was opened and not
closed is marked up to the end of its line, except that of a comment only the marker is. -/
inductive Problem.Marks : Problem → List Char → List Char → Prop where
  | string {quote : Char} (hQuote : Literal.isQuote quote = true) (more : List Char) :
      Marks (.unterminatedString (String.singleton quote)) (quote :: more) []
  | group (bracket : Bracket) (more : List Char) :
      Marks
        (.unterminatedGroup (String.singleton bracket.opener) (String.singleton bracket.closer))
        (bracket.opener :: more) []
  | comment (beyond : List Char) : Marks .unterminatedComment ['/', '*'] beyond
  | delimiter (bracket : Bracket) (beyond : List Char) :
      Marks (.unbalancedDelimiter (String.singleton bracket.closer)) [bracket.closer] beyond
  | character {c : Char} (hPrintable : Text.isPrintable c = false) (beyond : List Char) :
      Marks (.invalidCharacter c) [c] beyond

/-- If a reading is a fault, the line at the fault starts with what the problem marks. -/
def Reading.WellMarked : Reading → Prop
  | .lexeme .. => True
  | .fault problem _ covered rest =>
      ∃ marked beyond, Text.sourceLine (covered ++ rest) = marked ++ beyond ∧
        problem.Marks marked beyond

theorem Comment.wellMarked_readBlock (text : List Char) : (Comment.readBlock text).WellMarked := by
  unfold Comment.readBlock
  split
  · trivial
  · refine ⟨['/', '*'], Text.sourceLine text, ?_, .comment _⟩
    rw [List.append_nil, Text.sourceLine_cons (by decide), Text.sourceLine_cons (by decide)]
    rfl

theorem Literal.wellMarked_read {quote : Char} (hQuote : Literal.isQuote quote = true)
    (text : List Char) : (Literal.read quote text).WellMarked := by
  unfold Literal.read Literal.Body.reading
  split
  · trivial
  · let body := Literal.readBody quote text
    refine ⟨quote :: Text.sourceLine (body.raw ++ body.rest), [], ?_, .string hQuote _⟩
    rw [List.cons_append, Text.sourceLine_cons (Literal.ne_of_isQuote hQuote).2.1, List.append_nil]

theorem Bracket.opener_ne_lineFeed (bracket : Bracket) : bracket.opener ≠ '\n' := by
  cases bracket <;> decide

theorem Bracket.closer_ne_lineFeed (bracket : Bracket) : bracket.closer ≠ '\n' := by
  cases bracket <;> decide

/-- A group is broken off where the grammar says. -/
theorem Group.wellMarked_read (bracket : Bracket) (text : List Char) :
    (Group.read bracket text).WellMarked := by
  obtain ⟨passed, nested, tail, last, -, -, hEnds, hBody⟩ :=
    (Group.readBody_eq_iff bracket text _).mp rfl
  rw [Group.read, hBody]
  cases hEnds with
  | closed rest => trivial
  | @unbalanced _ other rest _ =>
      refine ⟨[other.closer], Text.sourceLine rest, ?_, .delimiter other _⟩
      rw [List.nil_append, Text.sourceLine_cons other.closer_ne_lineFeed]
      rfl
  | @unterminatedComment _ inner _ =>
      refine ⟨['/', '*'], Text.sourceLine inner, ?_, .comment _⟩
      rw [List.append_nil, Text.sourceLine_cons (by decide), Text.sourceLine_cons (by decide)]
      rfl
  | unterminated _ =>
      refine ⟨bracket.opener :: Text.sourceLine (passed ++ tail), [], ?_, .group bracket _⟩
      rw [List.append_nil, List.append_nil, Text.sourceLine_cons bracket.opener_ne_lineFeed]
      rfl

theorem Operator.wellMarked_read {first : Char} (hFirst : first ≠ '\n') (rest : List Char) :
    (Operator.read first rest).WellMarked := by
  have hSingle : (Operator.read.single first rest).WellMarked := by
    unfold Operator.read.single
    split
    · trivial
    · rename_i hPrintable
      refine ⟨[first], Text.sourceLine rest, ?_, .character (by simpa using hPrintable) _⟩
      rw [List.singleton_append, Text.sourceLine_cons hFirst, List.singleton_append]
  unfold Operator.read
  split
  · split
    · trivial
    · exact hSingle
  · exact hSingle

theorem Reading.wellMarked_outsideGroup {first : Char} (hFirst : first ≠ '\n')
    (rest : List Char) : (Reading.outsideGroup first rest).WellMarked := by
  unfold Reading.outsideGroup
  split
  · rename_i bracket hCloser
    refine ⟨[bracket.closer], Text.sourceLine rest, ?_, .delimiter bracket _⟩
    rw [List.nil_append, Text.sourceLine_cons hFirst, Bracket.ofCloser?_eq_some.mp hCloser,
      List.singleton_append]
  · exact Operator.wellMarked_read hFirst rest

/-- Only generic arguments that are closed are read as such. -/
theorem GenericArguments.wellMarked_of_read? {text : List Char} {reading : Reading}
    (hRead : GenericArguments.read? text = some reading) : reading.WellMarked := by
  unfold GenericArguments.read? at hRead
  split at hRead
  · cases hRead
  · split at hRead
    · cases hRead
      trivial
    · cases hRead

/-- Whatever goes wrong at a character other than a line feed is marked on its line. -/
theorem Reading.wellMarked_ofText (afterWord : Bool) {first : Char} (hFirst : first ≠ '\n')
    (rest : List Char) : (Reading.ofText afterWord first rest).WellMarked := by
  unfold Reading.ofText
  split
  · trivial
  split
  · exact Comment.wellMarked_readBlock _
  split
  · trivial
  split
  · trivial
  split
  · trivial
  split
  · rename_i hQuote
    exact Literal.wellMarked_read hQuote rest
  split
  · trivial
  unfold Reading.atBracket
  split
  · exact Group.wellMarked_read _ rest
  split
  · cases hRead : GenericArguments.read? rest with
    | none => exact Reading.wellMarked_outsideGroup hFirst rest
    | some reading => exact GenericArguments.wellMarked_of_read? hRead
  · exact Reading.wellMarked_outsideGroup hFirst rest

end FlatSyntax
