import FlatSyntax.Lexeme.Read
import FlatSyntax.Proofs.Lexeme.Comment
import FlatSyntax.Proofs.Lexeme.Literal

/-! How each kind of token is spelled, and where its spelling stops. Every lexeme that is read is
spelled as its kind says, and reading stops no earlier than the kind allows. -/
namespace FlatSyntax

/-- A letter or an underscore, and any characters of words after it. -/
def Word.IsWord (word : List Char) : Prop :=
  ∃ first more, word = first :: more ∧ isStart first = true ∧ ∀ c ∈ more, isPart c = true

/-- One digit or more, and nothing else. -/
def Number.IsDigits (text : List Char) : Prop :=
  text ≠ [] ∧ ∀ c ∈ text, Text.isDigit c = true

/-- Digits, or digits on both sides of a point. -/
def Number.IsNumeral (text : List Char) : Prop :=
  IsDigits text ∨
    ∃ whole fraction, text = whole ++ '.' :: fraction ∧ IsDigits whole ∧ IsDigits fraction

/-- A character that may be an operator by itself: it has a printed form and starts no token of
another kind by itself. -/
def Operator.IsSingle (c : Char) : Prop :=
  Text.isPrintable c = true ∧ Word.isStart c = false ∧ Text.isDigit c = false ∧
    Literal.isQuote c = false ∧ Bracket.ofOpener? c = none ∧ Bracket.ofCloser? c = none

namespace TokenKind

/-- The characters `raw` spell a token of this kind with this value. -/
def Spells (kind : TokenKind) (value raw : List Char) : Prop :=
  match kind with
  | .identifier =>
      raw = value ∧ Word.IsWord raw ∧ ∀ tag, (String.ofList raw, tag) ∉ Word.reserved
  | .keyword | .headKeyword | .bodyKeyword =>
      raw = value ∧ Word.IsWord raw ∧ (String.ofList raw, kind) ∈ Word.reserved
  | .number => raw = value ∧ Number.IsNumeral raw
  | .staticMarker => raw = value ∧ raw = ['$']
  | .symbol =>
      raw = value ∧
        ((∃ c d, raw = [c, d] ∧ (c, d) ∈ Operator.pairs) ∨ ∃ c, raw = [c] ∧ Operator.IsSingle c)
  | .round => raw = '(' :: value ++ [')']
  | .curly => raw = '\x7b' :: value ++ ['\x7d']
  | .square => raw = '[' :: value ++ [']']
  | .angle => raw = '<' :: value ++ ['>']
  | .directive => '\n' ∉ raw ∧ Directive.marker <+: raw ∧ value = Text.trimEnd raw
  | .comment =>
      ∃ inner, value = Text.trim inner ∧
        (raw = '/' :: '/' :: inner ∧ '\n' ∉ inner ∨
          raw = '/' :: '*' :: inner ++ Comment.closing ∧ ¬ Comment.closing <:+: inner)
  | .string =>
      ∃ quote body, raw = quote :: body ++ [quote] ∧ Literal.isQuote quote = true ∧
        Literal.Inside quote body ∧ Literal.StandsFor body value

/-- A token of this kind that is spelled `raw` has to end before the text `after`: no longer
spelling of its kind starts the same way, and a marker stands before a square group. -/
def Stops (kind : TokenKind) (raw after : List Char) : Prop :=
  match kind with
  | .identifier | .keyword | .headKeyword | .bodyKeyword =>
      ∀ c ∈ after.head?, Word.isPart c = false
  | .number =>
      (∀ c ∈ after.head?, Text.isDigit c = false) ∧
        ('.' ∉ raw → ∀ c rest, after = '.' :: c :: rest → Text.isDigit c = false)
  | .staticMarker => after.head? = some '['
  | .symbol =>
      ∀ c, raw = [c] → ∀ d ∈ after.head?, (c, d) ∉ Operator.pairs ∧ ¬ (c = '$' ∧ d = '[')
  | .directive => ∀ c ∈ after.head?, c = '\n'
  | .comment => ['/', '/'] <+: raw → ∀ c ∈ after.head?, c = '\n'
  | .round | .curly | .square | .angle | .string => True

end TokenKind

/-- A lexeme is spelled as its kind says and stops where it has to. -/
def Lexeme.WellSpelled (lexeme : Lexeme) (after : List Char) : Prop :=
  lexeme.kind.Spells lexeme.value lexeme.raw ∧ lexeme.kind.Stops lexeme.raw after

/-- If a lexeme was read, it is well spelled. -/
def Reading.WellSpelled : Reading → Prop
  | .lexeme found rest => found.WellSpelled rest
  | .fault .. => True

/-- Only reserved words are tagged, and each with its own kind. -/
theorem Word.kind_cases (word : List Char) :
    (Word.kind word = .identifier ∧ ∀ tag, (String.ofList word, tag) ∉ Word.reserved) ∨
      (Word.kind word ∈ [.keyword, .headKeyword, .bodyKeyword] ∧
        (String.ofList word, Word.kind word) ∈ Word.reserved) := by
  unfold Word.kind
  cases hLookup : Word.reserved.lookup (String.ofList word) with
  | none =>
      refine Or.inl ⟨rfl, fun tag hMem => ?_⟩
      have hOther := List.lookup_eq_none_iff.mp hLookup _ hMem
      simp at hOther
  | some tag =>
      obtain ⟨before, after, hTable, -⟩ := List.lookup_eq_some_iff.mp hLookup
      have hMem : (String.ofList word, tag) ∈ Word.reserved := by rw [hTable]; simp
      have hTags : ∀ entry ∈ Word.reserved,
          entry.2 ∈ [TokenKind.keyword, .headKeyword, .bodyKeyword] := by decide
      exact Or.inr ⟨hTags _ hMem, hMem⟩

theorem Word.wellSpelled_read {first : Char} (hFirst : Word.isStart first = true)
    (rest : List Char) : (Word.read first rest).WellSpelled := by
  have hWord : Word.IsWord (first :: rest.takeWhile Word.isPart) :=
    ⟨first, _, rfl, hFirst, List.all_eq_true.mp List.all_takeWhile⟩
  have hStops : ∀ c ∈ (rest.dropWhile Word.isPart).head?, Word.isPart c = false :=
    fun c hHead => Text.head?_dropWhile hHead
  simp only [Word.read, Reading.WellSpelled, Lexeme.WellSpelled, Lexeme.verbatim, Lexeme.raw]
  rcases Word.kind_cases (first :: rest.takeWhile Word.isPart) with ⟨hKind, hFree⟩ | ⟨hKind, hMem⟩
  · rw [hKind]
    exact ⟨⟨rfl, hWord, hFree⟩, hStops⟩
  · generalize Word.kind (first :: rest.takeWhile Word.isPart) = kind at hKind hMem
    simp only [List.mem_cons, List.not_mem_nil, or_false] at hKind
    rcases hKind with rfl | rfl | rfl <;> exact ⟨⟨rfl, hWord, hMem⟩, hStops⟩

/-- A fraction is taken where a point and a digit follow, and with all its digits. -/
theorem Number.splitFraction_cases (text : List Char) :
    ((Number.splitFraction text).1 = [] ∧ (Number.splitFraction text).2 = text ∧
        ∀ c rest, text = '.' :: c :: rest → Text.isDigit c = false) ∨
      ∃ fraction after, Number.splitFraction text = ('.' :: fraction, after) ∧
        Number.IsDigits fraction ∧ ∀ c ∈ after.head?, Text.isDigit c = false := by
  unfold Number.splitFraction
  split
  · rename_i c rest
    split
    · rename_i hDigit
      refine Or.inr ⟨c :: rest.takeWhile Text.isDigit, rest.dropWhile Text.isDigit, rfl,
        ⟨List.cons_ne_nil _ _, ?_⟩, fun d hHead => Text.head?_dropWhile hHead⟩
      intro d hMem
      rcases List.mem_cons.mp hMem with rfl | hMore
      · exact hDigit
      · exact List.all_eq_true.mp List.all_takeWhile d hMore
    · rename_i hDigit
      refine Or.inl ⟨rfl, rfl, ?_⟩
      rintro _ _ ⟨⟩
      simpa using hDigit
  · rename_i hShape
    exact Or.inl ⟨rfl, rfl, fun c rest hText => (hShape c rest hText).elim⟩

theorem Number.wellSpelled_read {first : Char} (hFirst : Text.isDigit first = true)
    (rest : List Char) : (Number.read first rest).WellSpelled := by
  have hWhole : Number.IsDigits (first :: rest.takeWhile Text.isDigit) := by
    refine ⟨List.cons_ne_nil _ _, fun c hMem => ?_⟩
    rcases List.mem_cons.mp hMem with rfl | hMore
    · exact hFirst
    · exact List.all_eq_true.mp List.all_takeWhile c hMore
  simp only [Number.read, Reading.WellSpelled, Lexeme.WellSpelled, Lexeme.verbatim, Lexeme.raw]
  rcases Number.splitFraction_cases (rest.dropWhile Text.isDigit) with
    ⟨hNone, hAfter, hNoFraction⟩ | ⟨fraction, after, hSplit, hFraction, hEnd⟩
  · rw [hNone, hAfter, List.append_nil]
    exact ⟨⟨rfl, Or.inl hWhole⟩, fun c hHead => Text.head?_dropWhile hHead, fun _ => hNoFraction⟩
  · rw [hSplit]
    refine ⟨⟨rfl, Or.inr ⟨_, fraction, rfl, hWhole, hFraction⟩⟩, hEnd, fun hPoint => ?_⟩
    simp at hPoint

theorem Comment.wellSpelled_readLine (text : List Char) : (Comment.readLine text).WellSpelled := by
  refine ⟨⟨_, rfl, Or.inl ⟨rfl, Text.lineFeed_notMem_sourceLine text⟩⟩, ?_⟩
  exact fun _ c hHead => Text.head?_afterSourceLine hHead

theorem Comment.wellSpelled_readBlock (text : List Char) :
    (Comment.readBlock text).WellSpelled := by
  unfold Comment.readBlock
  split
  · rename_i inner after hSplit
    refine ⟨⟨inner, rfl, Or.inr ⟨rfl, not_closing_infix_of_splitBlock hSplit⟩⟩, ?_⟩
    intro hLine
    simp [Lexeme.raw] at hLine
  · trivial

theorem Directive.marker_eq : Directive.marker = ['#', 'i', 'n', 'c', 'l', 'u', 'd', 'e'] := rfl

theorem Directive.wellSpelled_read {first : Char} {rest : List Char}
    (hMarker : Directive.marker <+: first :: rest) : (Directive.read first rest).WellSpelled := by
  have hFirst : first = '#' := by
    rw [Directive.marker_eq, List.cons_prefix_cons] at hMarker
    exact hMarker.1.symm
  have hLine : Text.sourceLine (first :: rest) = first :: Text.sourceLine rest := by
    simp [Text.sourceLine, hFirst]
  refine ⟨⟨?_, ?_, rfl⟩, fun c hHead => Text.head?_afterSourceLine hHead⟩
  · rw [Lexeme.raw, ← hLine]
    exact Text.lineFeed_notMem_sourceLine (first :: rest)
  · -- the marker has no line feed, so it lies inside the line
    obtain ⟨more, hMore⟩ := hMarker
    rw [Lexeme.raw, ← hLine, ← hMore]
    refine ⟨Text.sourceLine more, ?_⟩
    simp [Text.sourceLine, Directive.marker_eq]

theorem Literal.wellSpelled_read {quote : Char} (hQuote : Literal.isQuote quote = true)
    (text : List Char) : (Literal.read quote text).WellSpelled := by
  unfold Literal.read Literal.Body.reading
  split
  · rename_i hClosed
    obtain ⟨hInside, hValue⟩ := Literal.inside_of_closed hQuote hClosed
    have hStands := hInside.standsFor_resolve
    rw [← hValue] at hStands
    exact ⟨⟨quote, _, rfl, hQuote, hInside, hStands⟩, trivial⟩
  · trivial

theorem Group.wellSpelled_read (bracket : Bracket) (text : List Char) :
    (Group.read bracket text).WellSpelled := by
  unfold Group.read Group.Body.reading
  split
  · cases bracket <;> exact ⟨rfl, trivial⟩
  all_goals trivial

theorem GenericArguments.wellSpelled_of_read? {text : List Char} {reading : Reading}
    (hRead : GenericArguments.read? text = some reading) : reading.WellSpelled := by
  unfold GenericArguments.read? at hRead
  split at hRead
  · cases hRead
  · split at hRead
    · cases hRead
      exact ⟨rfl, trivial⟩
    · cases hRead

/-- Where a single character is read, it starts neither a token of another kind nor a pair. -/
theorem Operator.wellSpelled_read {first : Char} {rest : List Char}
    (hWord : Word.isStart first = false) (hDigit : Text.isDigit first = false)
    (hQuote : Literal.isQuote first = false) (hOpener : Bracket.ofOpener? first = none)
    (hCloser : Bracket.ofCloser? first = none)
    (hMarker : ¬ (first = '$' ∧ rest.head? = some '[')) :
    (Operator.read first rest).WellSpelled := by
  have hSingle (hPair : ∀ d ∈ rest.head?, (first, d) ∉ Operator.pairs) :
      (Operator.read.single first rest).WellSpelled := by
    unfold Operator.read.single
    split
    · rename_i hPrintable
      refine ⟨⟨rfl, Or.inr ⟨first, rfl, hPrintable, hWord, hDigit, hQuote, hOpener, hCloser⟩⟩, ?_⟩
      intro c hRaw d hHead
      obtain rfl : first = c := (List.cons.inj hRaw).1
      exact ⟨hPair d hHead, fun hBoth => hMarker ⟨hBoth.1, hBoth.2 ▸ hHead⟩⟩
    · trivial
  unfold Operator.read
  split
  · rename_i second after
    split
    · rename_i hPair
      refine ⟨⟨rfl, Or.inl ⟨first, second, rfl, List.contains_iff_mem.mp hPair⟩⟩, ?_⟩
      intro c hRaw
      simp [Lexeme.raw, Lexeme.verbatim] at hRaw
    · rename_i hPair
      apply hSingle
      rintro d ⟨⟩
      simpa using hPair
  · exact hSingle (by simp)

/-- Whatever is read at a character is well spelled. -/
theorem Reading.wellSpelled_ofText (afterWord : Bool) (first : Char) (rest : List Char) :
    (Reading.ofText afterWord first rest).WellSpelled := by
  unfold Reading.ofText
  split
  · exact Comment.wellSpelled_readLine _
  split
  · exact Comment.wellSpelled_readBlock _
  split
  · rename_i hMarker
    exact Directive.wellSpelled_read (List.isPrefixOf_iff_prefix.mp hMarker)
  split
  · rename_i hWord
    exact Word.wellSpelled_read hWord rest
  split
  · rename_i hDigit
    exact Number.wellSpelled_read hDigit rest
  split
  · rename_i hQuote
    exact Literal.wellSpelled_read hQuote rest
  split
  · rename_i hMarker
    exact ⟨⟨rfl, by rw [hMarker.1]; rfl⟩, hMarker.2⟩
  rename_i hWord hDigit hQuote hMarker
  have hOutside (hOpener : Bracket.ofOpener? first = none) :
      (Reading.outsideGroup first rest).WellSpelled := by
    unfold Reading.outsideGroup
    split
    · trivial
    · rename_i hCloser
      exact Operator.wellSpelled_read (by simpa using hWord) (by simpa using hDigit)
        (by simpa using hQuote) hOpener hCloser hMarker
  unfold Reading.atBracket
  split
  · exact Group.wellSpelled_read _ rest
  · rename_i hOpener
    split
    · cases hRead : GenericArguments.read? rest with
      | none => exact hOutside hOpener
      | some reading => exact GenericArguments.wellSpelled_of_read? hRead
    · exact hOutside hOpener

end FlatSyntax
