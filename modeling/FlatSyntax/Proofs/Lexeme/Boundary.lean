import FlatSyntax.Proofs.Lexeme.Extension
import FlatSyntax.Proofs.Lexeme.GenericArguments
import FlatSyntax.Proofs.Lexeme.Start
import FlatSyntax.Scanner.Cursor

/-! Reading up to a boundary. A lexeme that was read once is read again wherever its spelling stands
before a boundary: what follows the boundary, and what stood before the lexeme, make no difference.
A gap is a boundary for every lexeme but the static marker, which needs its group. -/
namespace FlatSyntax

namespace TokenKind

/-- A token that is spelled so takes whatever else stands on its line. -/
def TakesLine (kind : TokenKind) (raw : List Char) : Prop :=
  kind = .directive ∨ kind = .comment ∧ ['/', '/'] <+: raw

instance (kind : TokenKind) (raw : List Char) : Decidable (kind.TakesLine raw) :=
  inferInstanceAs (Decidable (_ ∨ _))

/-- The text after a token starts with a boundary: it is empty, or goes on with a gap, or with what
stands directly behind a token of this kind. -/
inductive Bounded (kind : TokenKind) (raw : List Char) : List Char → Prop where
  | ended (hMarker : kind ≠ .staticMarker) : Bounded kind raw []
  | gap {c : Char} {rest : List Char} (hMarker : kind ≠ .staticMarker)
      (hGap : Cursor.isGap c = true) (hLine : kind.TakesLine raw → c = '\n') :
      Bounded kind raw (c :: rest)
  | arguments {rest : List Char} (hWord : kind.isWord = true) : Bounded kind raw ('<' :: rest)
  | group {rest : List Char} (hMarker : kind = .staticMarker) : Bounded kind raw ('[' :: rest)

variable {kind : TokenKind} {raw after : List Char}

theorem Bounded.lineFeed (hBounded : kind.Bounded raw after) (hLine : kind.TakesLine raw) :
    ∀ c ∈ after.head?, c = '\n' := by
  have hOther : kind.isWord = false ∧ kind ≠ .staticMarker := by
    rcases hLine with rfl | ⟨rfl, -⟩ <;> decide
  cases hBounded with
  | ended => simp
  | gap hMarker hGap hFeed => simpa using hFeed hLine
  | arguments hWord =>
      rw [hOther.1] at hWord
      cases hWord
  | group hMarker => exact absurd hMarker hOther.2

theorem Bounded.isGap (hBounded : kind.Bounded raw after) (hWord : kind.isWord = false)
    (hMarker : kind ≠ .staticMarker) : ∀ c ∈ after.head?, Cursor.isGap c = true := by
  cases hBounded with
  | ended => simp
  | gap _ hGap => simpa using hGap
  | arguments hArguments =>
      rw [hWord] at hArguments
      cases hArguments
  | group hGroup => exact absurd hGroup hMarker

end TokenKind

theorem Cursor.eq_of_isGap {c : Char} (hGap : isGap c = true) :
    c = ' ' ∨ c = '\t' ∨ c = '\r' ∨ c = '\n' := by
  simpa [isGap, or_assoc] using hGap

theorem Word.isPart_of_isGap {c : Char} (hGap : Cursor.isGap c = true) : isPart c = false := by
  rcases Cursor.eq_of_isGap hGap with rfl | rfl | rfl | rfl <;> rfl

theorem TokenKind.Bounded.not_isPart {kind : TokenKind} {raw after : List Char}
    (hBounded : kind.Bounded raw after) (hWord : kind.isWord = true) :
    ∀ c ∈ after.head?, Word.isPart c = false := by
  cases hBounded with
  | ended => simp
  | gap _ hGap => simpa using Word.isPart_of_isGap hGap
  | arguments => simp [show Word.isPart '<' = false by decide]
  | group hMarker =>
      rw [hMarker] at hWord
      cases hWord

theorem Comment.readLine_append {line after : List Char} (hLine : '\n' ∉ line)
    (hAfter : ∀ c ∈ after.head?, c = '\n') :
    readLine (line ++ after) = .lexeme ⟨.comment, Text.trim line, '/', '/' :: line⟩ after := by
  obtain ⟨hTake, hDrop⟩ := Text.sourceLine_append hLine hAfter
  rw [readLine, hTake, hDrop]

theorem Directive.read_append (first : Char) {line after : List Char} (hLine : '\n' ∉ line)
    (hAfter : ∀ c ∈ after.head?, c = '\n') :
    read first (line ++ after) =
      .lexeme ⟨.directive, Text.trimEnd (first :: line), first, line⟩ after := by
  obtain ⟨hTake, hDrop⟩ := Text.sourceLine_append hLine hAfter
  rw [read, hTake, hDrop]

theorem Word.read_append (first : Char) {more after : List Char}
    (hMore : ∀ c ∈ more, isPart c = true) (hAfter : ∀ c ∈ after.head?, isPart c = false) :
    read first (more ++ after) =
      .lexeme (.verbatim (kind (first :: more)) first more) after := by
  obtain ⟨hTake, hDrop⟩ := Text.takeWhile_run hMore hAfter
  rw [read, hTake, hDrop]

theorem Word.isWord_kind (word : List Char) : (Word.kind word).isWord = true := by
  have hReserved : ∀ kind ∈ [TokenKind.keyword, .headKeyword, .bodyKeyword],
      kind.isWord = true := by decide
  rcases Word.kind_cases word with ⟨hKind, -⟩ | ⟨hKind, -⟩
  · rw [hKind]
    rfl
  · exact hReserved _ hKind

theorem Number.read_append {first : Char} {more after : List Char}
    (hNumeral : IsNumeral (first :: more))
    (hAfter : ∀ c ∈ after.head?, Text.isDigit c = false ∧ c ≠ '.') :
    read first (more ++ after) = .lexeme (.verbatim .number first more) after := by
  have hDigit : ∀ c ∈ after.head?, Text.isDigit c = false := fun c hHead => (hAfter c hHead).1
  have hPoint : splitFraction after = ([], after) := by
    cases after with
    | nil => rfl
    | cons c rest => rw [splitFraction.eq_2 _ fun d more hText => (hAfter c rfl).2 (by simp_all)]
  rcases hNumeral with hDigits | ⟨whole, fraction, hText, hWhole, hFraction⟩
  · obtain ⟨hTake, hDrop⟩ := Text.takeWhile_run
      (fun c hMem => hDigits.2 c (List.mem_cons_of_mem first hMem)) hDigit
    simp only [read, hTake, hDrop, hPoint, List.append_nil]
  · obtain ⟨w, whole, rfl⟩ := List.exists_cons_of_ne_nil hWhole.1
    obtain ⟨d, fraction, rfl⟩ := List.exists_cons_of_ne_nil hFraction.1
    obtain ⟨rfl, hMore⟩ : first = w ∧ more = whole ++ '.' :: d :: fraction := List.cons.inj hText
    have hEnd : ∀ c ∈ ('.' :: d :: fraction ++ after).head?, Text.isDigit c = false := by
      simp [show Text.isDigit '.' = false by decide +kernel]
    obtain ⟨hTake, hDrop⟩ := Text.takeWhile_run
      (fun c hMem => hWhole.2 c (List.mem_cons_of_mem first hMem)) hEnd
    obtain ⟨hTakeMore, hDropMore⟩ := Text.takeWhile_run
      (fun c hMem => hFraction.2 c (List.mem_cons_of_mem d hMem)) hDigit
    have hSplit : splitFraction ('.' :: d :: fraction ++ after) =
        ('.' :: d :: fraction, after) := by
      rw [List.cons_append, List.cons_append, splitFraction,
        if_pos (hFraction.2 d List.mem_cons_self), hTakeMore, hDropMore]
    rw [hMore, List.append_assoc]
    simp only [read, hTake, hDrop, hSplit]

theorem Literal.read_eq_lexeme {quote : Char} (hQuote : isQuote quote = true)
    {text after : List Char} {lexeme : Lexeme} (hRead : read quote text = .lexeme lexeme after) :
    ∃ inner, lexeme = ⟨.string, resolve inner, quote, inner ++ [quote]⟩ ∧ Inside quote inner := by
  unfold read Body.reading at hRead
  split at hRead
  · rename_i hClosed
    obtain ⟨hInside, hValue⟩ := inside_of_closed hQuote hClosed
    cases hRead
    exact ⟨(readBody quote text).raw, by rw [hValue], hInside⟩
  · cases hRead

theorem Literal.read_append {quote : Char} (hQuote : isQuote quote = true) {inner : List Char}
    (hInside : Inside quote inner) (after : List Char) :
    read quote (inner ++ quote :: after) =
      .lexeme ⟨.string, resolve inner, quote, inner ++ [quote]⟩ after := by
  rw [read, readBody_closed hInside (ne_of_isQuote hQuote).1]
  rfl

theorem Group.read_append (bracket : Bracket) {inner : List Char} (hInner : IsBody inner)
    (after : List Char) :
    read bracket (inner ++ bracket.closer :: after) =
      .lexeme ⟨bracket.kind, inner, bracket.opener, inner ++ [bracket.closer]⟩ after := by
  rw [read, readBody_eq_closed_iff.mpr ⟨hInner, rfl⟩]
  rfl

/-- Operators have two characters, or one that makes no pair with the next one. -/
theorem Operator.read_eq_lexeme {first : Char} {rest after : List Char} {lexeme : Lexeme}
    (hRead : read first rest = .lexeme lexeme after) :
    (∃ second, lexeme = .verbatim .symbol first [second] ∧ rest = second :: after ∧
        (first, second) ∈ pairs) ∨
      lexeme = .verbatim .symbol first [] ∧ rest = after ∧ Text.isPrintable first = true := by
  have hSingle (hRead : read.single first rest = .lexeme lexeme after) :
      lexeme = .verbatim .symbol first [] ∧ rest = after ∧ Text.isPrintable first = true := by
    unfold read.single at hRead
    split at hRead
    · rename_i hPrintable
      cases hRead
      exact ⟨rfl, rfl, hPrintable⟩
    · cases hRead
  unfold read at hRead
  split at hRead
  · split at hRead
    · rename_i second more hPair
      cases hRead
      exact Or.inl ⟨second, rfl, rfl, List.contains_iff_mem.mp hPair⟩
    · exact Or.inr (hSingle hRead)
  · exact Or.inr (hSingle hRead)

theorem Operator.read_pair {first second : Char} (hPair : (first, second) ∈ pairs)
    (after : List Char) :
    read first (second :: after) = .lexeme (.verbatim .symbol first [second]) after := by
  rw [read, if_pos (List.contains_iff_mem.mpr hPair)]

/-- No pair has a gap in it, so an operator of one character is read before a gap. -/
theorem Operator.read_single {first : Char} (hPrintable : Text.isPrintable first = true)
    {after : List Char} (hAfter : ∀ c ∈ after.head?, Cursor.isGap c = true) :
    read first after = .lexeme (.verbatim .symbol first []) after := by
  have hSingle : read.single first after = .lexeme (.verbatim .symbol first []) after := by
    rw [read.single, if_pos hPrintable]
  cases after with
  | nil => exact hSingle
  | cons c rest =>
      have hPairs : ∀ pair ∈ pairs, Cursor.isGap pair.2 = false := by decide
      have hOther : ¬ pairs.contains (first, c) = true := by
        intro hPair
        have hNot := hPairs _ (List.contains_iff_mem.mp hPair)
        rw [hAfter c rfl] at hNot
        cases hNot
      rw [read, if_neg hOther]
      exact hSingle

namespace Reading

variable {afterWord : Bool} {first : Char} {text after : List Char} {lexeme : Lexeme}

/-- An operator at the start of a text still starts it as one where its boundary is moved up. -/
theorem starts_operator (hFirst : Operator.Leads first)
    (hComment : ¬ Group.OpensComment (first :: text))
    (hRead : Operator.read first text = .lexeme lexeme after) {beyond : List Char}
    (hBeyond : ∀ c ∈ beyond.head?, Cursor.isGap c = true) :
    Starts false (lexeme.raw ++ beyond) (.lexeme lexeme beyond) := by
  have hNoArguments (rest : List Char) (_ : first = '<') (hFalse : false = true) :
      GenericArguments.read? rest = none := absurd hFalse Bool.false_ne_true
  rcases Operator.read_eq_lexeme hRead with ⟨second, rfl, rfl, hPair⟩ | ⟨rfl, rfl, hPrintable⟩
  · have hPairs : ∀ pair ∈ Operator.pairs, pair.1 ≠ '#' ∧ pair.1 ≠ '$' := by decide
    obtain ⟨hHash, hDollar⟩ := hPairs _ hPair
    have hStarts : Starts false (first :: second :: beyond)
        (Operator.read first (second :: beyond)) := by
      apply Starts.operator hFirst
      · rw [opensComment_iff] at hComment ⊢
        exact hComment
      · rw [Directive.marker_eq, List.cons_prefix_cons]
        exact fun hMarker => hHash hMarker.1.symm
      · exact fun hMarker => hDollar hMarker.1
      · exact hNoArguments _
    rw [Operator.read_pair hPair] at hStarts
    exact hStarts
  · -- no gap character makes a longer token of the operator
    have hHead (c : Char) (hHead : beyond.head? = some c) :
        c ≠ '/' ∧ c ≠ '*' ∧ c ≠ 'i' ∧ c ≠ '[' := by
      rcases Cursor.eq_of_isGap (hBeyond c hHead) with rfl | rfl | rfl | rfl <;> decide
    have hStarts : Starts false (first :: beyond) (Operator.read first beyond) := by
      apply Starts.operator hFirst
      · rw [opensComment_iff]
        rintro ⟨-, hSlash | hStar⟩
        · exact (hHead _ hSlash).1 rfl
        · exact (hHead _ hStar).2.1 rfl
      · intro hMarker
        obtain ⟨more, hMore⟩ := (List.cons_prefix_cons.mp (Directive.marker_eq ▸ hMarker)).2
        rw [← hMore] at hHead
        exact (hHead 'i' rfl).2.2.1 rfl
      · exact fun hMarker => (hHead _ hMarker.2).2.2.2 rfl
      · exact hNoArguments _
    rw [Operator.read_single hPrintable hBeyond] at hStarts
    exact hStarts

/-- A lexeme that was read is read again where its spelling stands before a boundary. Only generic
arguments have to stand directly behind a word again. -/
theorem Starts.bounded (hStarts : Starts afterWord text (.lexeme lexeme after)) {beyond : List Char}
    (hBeyond : lexeme.kind.Bounded lexeme.raw beyond) :
    Starts (lexeme.kind == .angle) (lexeme.raw ++ beyond) (.lexeme lexeme beyond) := by
  generalize hReading : Reading.lexeme lexeme after = reading at hStarts
  cases hStarts with
  | lineComment text =>
      cases hReading
      have hFeed := hBeyond.lineFeed (Or.inr ⟨rfl, Text.sourceLine text, rfl⟩)
      rw [← Comment.readLine_append (Text.lineFeed_notMem_sourceLine text) hFeed]
      exact .lineComment _
  | blockComment text =>
      cases hSplit : Comment.splitBlock text with
      | none =>
          rw [Comment.readBlock, hSplit] at hReading
          cases hReading
      | some parts =>
          obtain ⟨inner, rest⟩ := parts
          have hInner := Comment.not_closing_infix_of_splitBlock hSplit
          rw [Comment.readBlock, hSplit] at hReading
          cases hReading
          have hStarts : Starts (TokenKind.comment == .angle) ('/' :: '*' :: _) _ :=
            .blockComment (inner ++ '*' :: '/' :: beyond)
          rw [Comment.readBlock, Comment.splitBlock_append hInner] at hStarts
          simpa [Lexeme.raw] using hStarts
  | @directive rest hMarker =>
      have hSpelled := Directive.wellSpelled_read hMarker
      rw [← hReading] at hSpelled
      cases hReading
      have hRaw : Directive.marker <+: '#' :: Text.sourceLine rest := hSpelled.1.2.1
      rw [← Directive.read_append '#' (Text.lineFeed_notMem_sourceLine rest)
        (hBeyond.lineFeed (Or.inl rfl))]
      exact .directive (hRaw.trans (List.prefix_append _ beyond))
  | @word first hFirst rest =>
      cases hReading
      have hMore : ∀ c ∈ rest.takeWhile Word.isPart, Word.isPart c = true :=
        List.all_eq_true.mp List.all_takeWhile
      rw [← Word.read_append first hMore (hBeyond.not_isPart (Word.isWord_kind _))]
      exact .word hFirst _
  | @number first hFirst rest =>
      have hSpelled := Number.wellSpelled_read hFirst rest
      rw [← hReading] at hSpelled
      obtain ⟨more, rfl⟩ : ∃ more, lexeme = .verbatim .number first more :=
        ⟨_, (Reading.lexeme.inj hReading).1⟩
      have hEnd (c : Char) (hHead : c ∈ beyond.head?) : Text.isDigit c = false ∧ c ≠ '.' := by
        have hGap := hBeyond.isGap rfl (show TokenKind.number ≠ .staticMarker by decide) c hHead
        rcases Cursor.eq_of_isGap hGap with rfl | rfl | rfl | rfl <;>
          decide +kernel
      have hNumeral : Number.IsNumeral (first :: more) := hSpelled.1.2
      rw [← Number.read_append hNumeral hEnd]
      exact .number hFirst _
  | @literal quote hQuote rest =>
      obtain ⟨inner, rfl, hInside⟩ := Literal.read_eq_lexeme hQuote hReading.symm
      rw [← Literal.read_append hQuote hInside]
      have hStarts : Starts (TokenKind.string == .angle) (quote :: _) _ :=
        .literal hQuote (inner ++ quote :: beyond)
      simpa [Lexeme.raw] using hStarts
  | marker rest =>
      cases hReading
      cases hBeyond with
      | ended hOther | gap hOther => exact absurd rfl hOther
      | arguments hWord => cases hWord
      | group => exact .marker _
  | group bracket rest =>
      obtain ⟨inner, rfl, hInner⟩ := Group.read_eq_lexeme hReading.symm
      rw [← Group.read_append bracket hInner]
      have hStarts : Starts (bracket.kind == .angle) (_ :: _) _ :=
        .group bracket (inner ++ bracket.closer :: beyond)
      simpa [Lexeme.raw] using hStarts
  | arguments hWord hRead =>
      obtain ⟨inner, after, -, hInner, hLexeme⟩ :=
        GenericArguments.read?_eq_some_iff.mp (hReading ▸ hRead)
      obtain ⟨rfl, -⟩ := Reading.lexeme.inj hLexeme
      have hRead : GenericArguments.read? (inner ++ '>' :: beyond) =
          some (.lexeme ⟨.angle, inner, '<', inner ++ ['>']⟩ beyond) :=
        GenericArguments.read?_eq_some_iff.mpr ⟨inner, beyond, rfl, hInner, rfl⟩
      have hStarts : Starts true ('<' :: (inner ++ '>' :: beyond)) _ := .arguments rfl hRead
      simpa [Lexeme.raw] using hStarts
  | closer bracket rest => cases hReading
  | operator hFirst hComment hDirective hMarker hArguments =>
      have hKind : lexeme.kind = .symbol := by
        rcases Operator.read_eq_lexeme hReading.symm with ⟨second, rfl, -⟩ | ⟨rfl, -⟩ <;> rfl
      rw [hKind] at hBeyond ⊢
      exact starts_operator hFirst hComment hReading.symm (hBeyond.isGap rfl (by decide))

/-- At an opening square bracket only a square group is read. -/
theorem Starts.kind_of_square (hStarts : Starts afterWord ('[' :: text) (.lexeme lexeme after)) :
    lexeme.kind = .square := by
  have hRead : ofText afterWord Bracket.square.opener text = .lexeme lexeme after :=
    hStarts.eq_ofText.symm
  rw [ofText_opener] at hRead
  obtain ⟨inner, rfl, -⟩ := Group.read_eq_lexeme hRead
  rfl

/-- Generic arguments are read directly behind a word only. -/
theorem Starts.afterWord_of_angle
    (hStarts : Starts afterWord (first :: text) (.lexeme lexeme after))
    (hKind : lexeme.kind = .angle) : afterWord = true := by
  cases afterWord with
  | true => rfl
  | false =>
      have hSpelled := wellSpelled_ofText false first text
      have hSource := source_ofText false first text
      rw [← hStarts.eq_ofText] at hSpelled hSource
      have hRaw : lexeme.raw = '<' :: lexeme.value ++ ['>'] := by
        have hSpells := hSpelled.1
        rw [hKind] at hSpells
        exact hSpells
      rw [source, hRaw] at hSource
      obtain rfl : '<' = first := (List.cons.inj hSource).1
      have hRead : Operator.read '<' text = .lexeme lexeme after :=
        (ofText_angle false text).symm.trans hStarts.eq_ofText.symm
      rcases Operator.read_eq_lexeme hRead with ⟨_, rfl, -⟩ | ⟨rfl, -⟩ <;> cases hKind

end Reading

end FlatSyntax
