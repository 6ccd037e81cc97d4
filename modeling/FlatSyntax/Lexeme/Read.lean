import FlatSyntax.Lexeme.Directive
import FlatSyntax.Lexeme.GenericArguments
import FlatSyntax.Lexeme.Group
import FlatSyntax.Lexeme.Number
import FlatSyntax.Lexeme.Operator

/-!
Reading at any place of a source text. The first character, and for some the second, tell what is
read; the character before matters only for an angle bracket, which opens generic arguments where it
directly follows a word.
-/

namespace FlatSyntax

namespace Reading

/-- Read where no opening bracket stands: a closing bracket is a fault there, and any other
character is a symbol. -/
def outsideGroup (first : Char) (rest : List Char) : Reading :=
  match Bracket.ofCloser? first with
  | some bracket =>
      .fault (.unbalancedDelimiter (String.singleton bracket.closer)) [] [] (first :: rest)
  | none => Operator.read first rest

/-- Read at a character that starts neither a gap nor any token with a marker of its own. -/
def atBracket (afterWord : Bool) (first : Char) (rest : List Char) : Reading :=
  match Bracket.ofOpener? first with
  | some bracket => Group.read bracket rest
  | none =>
      if first = '<' ∧ afterWord then
        (GenericArguments.read? rest).getD (outsideGroup first rest)
      else outsideGroup first rest

/-- Read at a character that is no white space, given the text after it. -/
def ofText (afterWord : Bool) (first : Char) (rest : List Char) : Reading :=
  if first = '/' ∧ rest.head? = some '/' then Comment.readLine rest.tail
  else if first = '/' ∧ rest.head? = some '*' then Comment.readBlock rest.tail
  else if Directive.marker.isPrefixOf (first :: rest) then Directive.read first rest
  else if Word.isStart first then Word.read first rest
  else if Text.isDigit first then Number.read first rest
  else if Literal.isQuote first then Literal.read first rest
  else if first = '$' ∧ rest.head? = some '[' then
    .lexeme (.verbatim .staticMarker first []) rest
  else atBracket afterWord first rest

@[simp] theorem source_outsideGroup (first : Char) (rest : List Char) :
    (outsideGroup first rest).source = first :: rest := by
  unfold outsideGroup
  split
  · rfl
  · exact Operator.source_read first rest

@[simp] theorem source_atBracket (afterWord : Bool) (first : Char) (rest : List Char) :
    (atBracket afterWord first rest).source = first :: rest := by
  unfold atBracket
  split
  · rename_i bracket hOpener
    rw [Bracket.ofOpener?_eq_some.mp hOpener, Group.source_read]
  · split
    · rename_i hAngle
      cases hRead : GenericArguments.read? rest with
      | none => simp
      | some reading =>
          rw [Option.getD_some, GenericArguments.source_of_read? hRead, hAngle.1]
    · simp

/-- Whatever is read, the parts of the reading make up the text that it was read from. -/
@[simp] theorem source_ofText (afterWord : Bool) (first : Char) (rest : List Char) :
    (ofText afterWord first rest).source = first :: rest := by
  have hTail : ∀ c, rest.head? = some c → c :: rest.tail = rest := by
    intro c hHead
    cases rest <;> simp_all
  unfold ofText
  split
  · rename_i hMarker
    rw [Comment.source_readLine, hTail _ hMarker.2, hMarker.1]
  split
  · rename_i hMarker
    rw [Comment.source_readBlock, hTail _ hMarker.2, hMarker.1]
  split
  · exact Directive.source_read first rest
  split
  · exact Word.source_read first rest
  split
  · exact Number.source_read first rest
  split
  · exact Literal.source_read first rest
  split
  · rfl
  · exact source_atBracket afterWord first rest

end Reading

end FlatSyntax
