import FlatSyntax.Proofs.Lexeme.Group
import FlatSyntax.Proofs.Lexeme.SpellingUnique

/-! What the first characters of a text make of it. The tests for the kinds of token are made one
after the other, but the kinds start with different characters, so each test can be said by itself,
without those before it; only an operator is what remains when all of them fail. -/
namespace FlatSyntax

/-- The kinds of words. Generic arguments may stand directly behind these. -/
def TokenKind.isWord (kind : TokenKind) : Bool :=
  kind == .identifier || kind == .keyword || kind == .headKeyword || kind == .bodyKeyword

/-- A character that starts no token but an operator. -/
structure Operator.Leads (first : Char) : Prop where
  hWord : Word.isStart first = false
  hDigit : Text.isDigit first = false
  hPlain : Group.IsPlain first

/-- `Starts afterWord text reading` says that `reading` is what a text is read as, told by the way
the text starts. -/
inductive Reading.Starts (afterWord : Bool) : List Char → Reading → Prop where
  | lineComment (text : List Char) : Starts afterWord ('/' :: '/' :: text) (Comment.readLine text)
  | blockComment (text : List Char) : Starts afterWord ('/' :: '*' :: text) (Comment.readBlock text)
  | directive {rest : List Char} (hMarker : Directive.marker <+: '#' :: rest) :
      Starts afterWord ('#' :: rest) (Directive.read '#' rest)
  | word {first : Char} (hFirst : Word.isStart first = true) (rest : List Char) :
      Starts afterWord (first :: rest) (Word.read first rest)
  | number {first : Char} (hFirst : Text.isDigit first = true) (rest : List Char) :
      Starts afterWord (first :: rest) (Number.read first rest)
  | literal {quote : Char} (hQuote : Literal.isQuote quote = true) (rest : List Char) :
      Starts afterWord (quote :: rest) (Literal.read quote rest)
  | marker (rest : List Char) :
      Starts afterWord ('$' :: '[' :: rest) (.lexeme (.verbatim .staticMarker '$' []) ('[' :: rest))
  | group (bracket : Bracket) (rest : List Char) :
      Starts afterWord (bracket.opener :: rest) (Group.read bracket rest)
  | arguments {rest : List Char} {reading : Reading} (hWord : afterWord = true)
      (hRead : GenericArguments.read? rest = some reading) : Starts afterWord ('<' :: rest) reading
  | closer (bracket : Bracket) (rest : List Char) :
      Starts afterWord (bracket.closer :: rest)
        (.fault (.unbalancedDelimiter (String.singleton bracket.closer)) [] []
          (bracket.closer :: rest))
  | operator {first : Char} {rest : List Char} (hFirst : Operator.Leads first)
      (hComment : ¬ Group.OpensComment (first :: rest))
      (hDirective : ¬ Directive.marker <+: first :: rest)
      (hMarker : ¬ (first = '$' ∧ rest.head? = some '['))
      (hArguments : first = '<' → afterWord = true → GenericArguments.read? rest = none) :
      Starts afterWord (first :: rest) (Operator.read first rest)

namespace Reading

variable {afterWord : Bool} {first : Char} {rest : List Char}

/-- Where a comment opens, the second character tells which one. -/
theorem opensComment_iff :
    Group.OpensComment (first :: rest) ↔
      first = '/' ∧ (rest.head? = some '/' ∨ rest.head? = some '*') := by
  cases rest with
  | nil => simp [Group.OpensComment]
  | cons second rest =>
      simp only [Group.OpensComment, List.cons_prefix_cons, List.nil_prefix, and_true,
        List.head?_cons, Option.some.injEq]
      constructor
      · rintro (⟨rfl, rfl⟩ | ⟨rfl, rfl⟩)
        · exact ⟨rfl, Or.inl rfl⟩
        · exact ⟨rfl, Or.inr rfl⟩
      · rintro ⟨rfl, rfl | rfl⟩
        · exact Or.inl ⟨rfl, rfl⟩
        · exact Or.inr ⟨rfl, rfl⟩

/-- At a character of its own a text is read by no rule for comments or directives. -/
theorem ofText_of_not_marked (hComment : ¬ Group.OpensComment (first :: rest))
    (hDirective : ¬ Directive.marker <+: first :: rest) :
    ofText afterWord first rest =
      if Word.isStart first then Word.read first rest
      else if Text.isDigit first then Number.read first rest
      else if Literal.isQuote first then Literal.read first rest
      else if first = '$' ∧ rest.head? = some '[' then
        .lexeme (.verbatim .staticMarker first []) rest
      else atBracket afterWord first rest := by
  rw [opensComment_iff] at hComment
  rw [ofText, if_neg fun hLine => hComment ⟨hLine.1, Or.inl hLine.2⟩,
    if_neg fun hBlock => hComment ⟨hBlock.1, Or.inr hBlock.2⟩,
    if_neg fun hMarker => hDirective (List.isPrefixOf_iff_prefix.mp hMarker)]

theorem not_marked_of_ne (hSlash : first ≠ '/') (hHash : first ≠ '#') (rest : List Char) :
    ¬ Group.OpensComment (first :: rest) ∧ ¬ Directive.marker <+: first :: rest := by
  refine ⟨Group.not_opensComment_of_ne hSlash rest, fun hMarker => ?_⟩
  rw [Directive.marker_eq, List.cons_prefix_cons] at hMarker
  exact hHash hMarker.1.symm

theorem ofText_word (hFirst : Word.isStart first = true) :
    ofText afterWord first rest = Word.read first rest := by
  have hSlash : first ≠ '/' := by
    rintro rfl
    exact absurd hFirst (by decide)
  have hHash : first ≠ '#' := by
    rintro rfl
    exact absurd hFirst (by decide)
  obtain ⟨hComment, hDirective⟩ := not_marked_of_ne hSlash hHash rest
  rw [ofText_of_not_marked hComment hDirective, if_pos hFirst]

theorem isStart_of_isDigit (hFirst : Text.isDigit first = true) : Word.isStart first = false := by
  cases hStart : Word.isStart first with
  | false => rfl
  | true =>
      rw [Text.isDigit_of_isStart hStart] at hFirst
      cases hFirst

theorem ofText_number (hFirst : Text.isDigit first = true) :
    ofText afterWord first rest = Number.read first rest := by
  have hSlash : first ≠ '/' := by
    rintro rfl
    exact absurd hFirst (by decide +kernel)
  have hHash : first ≠ '#' := by
    rintro rfl
    exact absurd hFirst (by decide +kernel)
  obtain ⟨hComment, hDirective⟩ := not_marked_of_ne hSlash hHash rest
  rw [ofText_of_not_marked hComment hDirective, isStart_of_isDigit hFirst,
    if_neg Bool.false_ne_true, if_pos hFirst]

theorem ofText_literal {quote : Char} (hQuote : Literal.isQuote quote = true) :
    ofText afterWord quote rest = Literal.read quote rest := by
  have hEither : quote = '"' ∨ quote = '\'' := by simpa [Literal.isQuote] using hQuote
  have hOther : quote ≠ '/' ∧ quote ≠ '#' ∧ Word.isStart quote = false ∧
      Text.isDigit quote = false := by
    rcases hEither with rfl | rfl <;> decide +kernel
  obtain ⟨hSlash, hHash, hStart, hDigit⟩ := hOther
  obtain ⟨hComment, hDirective⟩ := not_marked_of_ne hSlash hHash rest
  rw [ofText_of_not_marked hComment hDirective, hStart, if_neg Bool.false_ne_true, hDigit,
    if_neg Bool.false_ne_true, if_pos hQuote]

/-- A character that starts no word, number or literal is looked at as a bracket. -/
theorem ofText_bracket (hWord : Word.isStart first = false) (hDigit : Text.isDigit first = false)
    (hQuote : Literal.isQuote first = false) (hComment : ¬ Group.OpensComment (first :: rest))
    (hDirective : ¬ Directive.marker <+: first :: rest)
    (hMarker : ¬ (first = '$' ∧ rest.head? = some '[')) :
    ofText afterWord first rest = atBracket afterWord first rest := by
  rw [ofText_of_not_marked hComment hDirective, hWord, if_neg Bool.false_ne_true, hDigit,
    if_neg Bool.false_ne_true, hQuote, if_neg Bool.false_ne_true, if_neg hMarker]

theorem ofText_opener (bracket : Bracket) :
    ofText afterWord bracket.opener rest = Group.read bracket rest := by
  obtain ⟨hComment, hDirective⟩ := not_marked_of_ne
    (show bracket.opener ≠ '/' by cases bracket <;> decide)
    (show bracket.opener ≠ '#' by cases bracket <;> decide) rest
  have hDollar : bracket.opener ≠ '$' := by cases bracket <;> decide
  rw [ofText_bracket (by cases bracket <;> decide) (by cases bracket <;> decide +kernel)
    (by cases bracket <;> decide) hComment hDirective (fun hMarker => hDollar hMarker.1),
    atBracket, Bracket.ofOpener?_eq_some.mpr rfl]

theorem ofText_closer (bracket : Bracket) :
    ofText afterWord bracket.closer rest =
      .fault (.unbalancedDelimiter (String.singleton bracket.closer)) [] []
        (bracket.closer :: rest) := by
  obtain ⟨hComment, hDirective⟩ := not_marked_of_ne
    (show bracket.closer ≠ '/' by cases bracket <;> decide)
    (show bracket.closer ≠ '#' by cases bracket <;> decide) rest
  have hDollar : bracket.closer ≠ '$' := by cases bracket <;> decide
  have hAngle : bracket.closer ≠ '<' := by cases bracket <;> decide
  have hOpener : Bracket.ofOpener? bracket.closer = none := by cases bracket <;> decide
  rw [ofText_bracket (by cases bracket <;> decide) (by cases bracket <;> decide +kernel)
    (by cases bracket <;> decide) hComment hDirective (fun hMarker => hDollar hMarker.1),
    atBracket, hOpener]
  simp only [hAngle, false_and, if_false, outsideGroup, Bracket.ofCloser?_eq_some.mpr rfl]

/-- At an opening angle bracket arguments are tried behind a word, and operators next. -/
theorem ofText_angle (afterWord : Bool) (rest : List Char) :
    ofText afterWord '<' rest =
      if afterWord then (GenericArguments.read? rest).getD (Operator.read '<' rest)
      else Operator.read '<' rest := by
  obtain ⟨hComment, hDirective⟩ := not_marked_of_ne
    (show '<' ≠ '/' by decide) (show '<' ≠ '#' by decide) rest
  have hOutside : outsideGroup '<' rest = Operator.read '<' rest := by
    rw [outsideGroup, show Bracket.ofCloser? '<' = none by decide]
  rw [ofText_bracket (by decide) (by decide +kernel) (by decide) hComment hDirective (by simp),
    atBracket, show Bracket.ofOpener? '<' = none by decide]
  cases afterWord <;> simp [hOutside]

/-- Generic arguments that cannot be read are passed to the rule for operators. -/
theorem atBracket_of_leads (hFirst : Operator.Leads first)
    (hArguments : first = '<' → afterWord = true → GenericArguments.read? rest = none) :
    atBracket afterWord first rest = Operator.read first rest := by
  obtain ⟨-, hOpener, hCloser⟩ := hFirst.hPlain
  have hOutside : outsideGroup first rest = Operator.read first rest := by
    rw [outsideGroup, hCloser]
  rw [atBracket, hOpener]
  simp only [hOutside]
  split
  · rename_i hAngle
    rw [hArguments hAngle.1 hAngle.2]
    rfl
  · rfl

/-- The way a text starts tells what it is read as. -/
theorem Starts.eq_ofText {reading : Reading} (hStarts : Starts afterWord (first :: rest) reading) :
    reading = ofText afterWord first rest := by
  cases hStarts with
  | lineComment text => rw [ofText, if_pos ⟨rfl, rfl⟩, List.tail_cons]
  | blockComment text => rw [ofText, if_neg (by simp), if_pos ⟨rfl, rfl⟩, List.tail_cons]
  | directive hMarker =>
      rw [ofText, if_neg (by simp), if_neg (by simp),
        if_pos (List.isPrefixOf_iff_prefix.mpr hMarker)]
  | word hFirst => exact (ofText_word hFirst).symm
  | number hFirst => exact (ofText_number hFirst).symm
  | literal hQuote => exact (ofText_literal hQuote).symm
  | marker rest =>
      obtain ⟨hComment, hDirective⟩ := not_marked_of_ne
        (show '$' ≠ '/' by decide) (show '$' ≠ '#' by decide) ('[' :: rest)
      rw [ofText_of_not_marked hComment hDirective, if_neg (by decide), if_neg (by decide +kernel),
        if_neg (by decide), if_pos ⟨rfl, rfl⟩]
  | group bracket => exact (ofText_opener bracket).symm
  | arguments hWord hRead => rw [ofText_angle, if_pos hWord, hRead, Option.getD_some]
  | closer bracket => exact (ofText_closer bracket).symm
  | operator hFirst hComment hDirective hMarker hArguments =>
      rw [ofText_bracket hFirst.hWord hFirst.hDigit hFirst.hPlain.1 hComment hDirective hMarker,
        atBracket_of_leads hFirst hArguments]

/-- Every text starts in one of the ways. -/
theorem exists_starts (afterWord : Bool) (first : Char) (rest : List Char) :
    ∃ reading, Starts afterWord (first :: rest) reading := by
  by_cases hComment : Group.OpensComment (first :: rest)
  · obtain ⟨rfl, hHead | hHead⟩ := opensComment_iff.mp hComment
    · obtain ⟨text, rfl⟩ := List.head?_eq_some_iff.mp hHead
      exact ⟨_, .lineComment text⟩
    · obtain ⟨text, rfl⟩ := List.head?_eq_some_iff.mp hHead
      exact ⟨_, .blockComment text⟩
  by_cases hDirective : Directive.marker <+: first :: rest
  · obtain rfl : '#' = first := (List.cons_prefix_cons.mp (Directive.marker_eq ▸ hDirective)).1
    exact ⟨_, .directive hDirective⟩
  by_cases hMarker : first = '$' ∧ rest.head? = some '['
  · obtain ⟨rfl, hHead⟩ := hMarker
    obtain ⟨text, rfl⟩ := List.head?_eq_some_iff.mp hHead
    exact ⟨_, .marker text⟩
  cases hWord : Word.isStart first with
  | true => exact ⟨_, .word hWord rest⟩
  | false =>
  cases hDigit : Text.isDigit first with
  | true => exact ⟨_, .number hDigit rest⟩
  | false =>
  cases hQuote : Literal.isQuote first with
  | true => exact ⟨_, .literal hQuote rest⟩
  | false =>
  cases hOpener : Bracket.ofOpener? first with
  | some bracket => exact Bracket.ofOpener?_eq_some.mp hOpener ▸ ⟨_, .group bracket rest⟩
  | none =>
  cases hCloser : Bracket.ofCloser? first with
  | some bracket => exact Bracket.ofCloser?_eq_some.mp hCloser ▸ ⟨_, .closer bracket rest⟩
  | none =>
      have hLeads : Operator.Leads first := ⟨hWord, hDigit, hQuote, hOpener, hCloser⟩
      by_cases hArguments : first = '<' → afterWord = true → GenericArguments.read? rest = none
      · exact ⟨_, .operator hLeads hComment hDirective hMarker hArguments⟩
      · simp only [Classical.not_imp] at hArguments
        obtain ⟨rfl, hAfter, hRead⟩ := hArguments
        obtain ⟨reading, hRead⟩ := Option.ne_none_iff_exists'.mp hRead
        exact ⟨reading, .arguments hAfter hRead⟩

/-- A text is read as the way tells in which it starts. -/
theorem ofText_eq_iff {reading : Reading} :
    ofText afterWord first rest = reading ↔ Starts afterWord (first :: rest) reading := by
  constructor
  · rintro rfl
    obtain ⟨reading, hStarts⟩ := exists_starts afterWord first rest
    rw [← hStarts.eq_ofText]
    exact hStarts
  · exact fun hStarts => hStarts.eq_ofText.symm

end Reading

end FlatSyntax
