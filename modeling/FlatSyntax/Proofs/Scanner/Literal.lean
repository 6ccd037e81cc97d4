import FlatSyntax.Proofs.Lexeme.Writing
import FlatSyntax.Proofs.Scanner.Span

/-! Scanning at a quote. A literal that is read for its meaning takes the same characters as one
that is passed over inside a group. It ends before the end of its line but where a backslash takes
the line feed with it. Every text can be written as a literal, and is read back. -/
namespace FlatSyntax

namespace Cursor

variable {cursor : Cursor} {quote : Char} {rest : List Char}

/-- At a quote nothing but a literal is read. -/
theorem next_of_quote (hRest : cursor.rest = quote :: rest)
    (hQuote : Literal.isQuote quote = true) (file : String) :
    cursor.next file = cursor.place file (Literal.read quote rest) := by
  have hGap : isGap quote = false := by
    have hEither : quote = '"' ∨ quote = '\'' := by simpa [Literal.isQuote] using hQuote
    rcases hEither with rfl | rfl <;> rfl
  rw [next_of_not_gap hRest hGap, Reading.ofText_literal hQuote]

theorem withAfterWord_eq {afterWord : Bool} (hWord : cursor.afterWord = afterWord) :
    { cursor with afterWord } = cursor := by
  rw [← hWord]

/-- Whether a literal is closed or cut off, the cursor moves over the characters that are passed
over when its meaning is not taken. -/
theorem cursor_place_literal (hRest : cursor.rest = quote :: rest) (file : String) :
    (cursor.place file (Literal.read quote rest)).cursor =
      cursor.advanceBy (quote :: (Literal.skip quote rest).1).length := by
  have hPassed := Literal.skip_append quote rest
  rw [Literal.skip_eq_readBody] at hPassed ⊢
  unfold Literal.read Literal.Body.reading
  generalize Literal.readBody quote rest = body at hPassed
  cases hClosed : body.closed with
  | false =>
      simp only [Bool.false_eq_true, if_false, List.append_nil]
      rfl
  | true =>
      simp only [hClosed, if_true] at hPassed ⊢
      have hCount : (quote :: (body.raw ++ [quote])).length ≤ cursor.rest.length := by
        rw [hRest, ← hPassed, ← List.cons_append]
        exact (List.prefix_append _ _).length_le
      exact withAfterWord_eq (afterWord_advanceBy hCount)

/-- A token is found at a quote exactly where the literal is closed. -/
theorem place_literal_eq_token_iff (quote : Char) (rest : List Char) (file : String) :
    (∃ token after, cursor.place file (Literal.read quote rest) = .token token after) ↔
      (Literal.readBody quote rest).closed = true := by
  unfold Literal.read Literal.Body.reading
  cases (Literal.readBody quote rest).closed <;> simp [place]

theorem place_literal_eq_problem_iff (quote : Char) (rest : List Char) (file : String) :
    (∃ diagnostic after, cursor.place file (Literal.read quote rest) = .problem diagnostic after) ↔
      ¬ (Literal.readBody quote rest).closed = true := by
  unfold Literal.read Literal.Body.reading
  cases (Literal.readBody quote rest).closed <;> simp [place]

/-- A literal that is still open where its line ends is diagnosed at its opening quote. -/
theorem next_of_open_literal {body tail : List Char} (hQuote : Literal.isQuote quote = true)
    (hInside : Literal.Inside quote body) (hTail : Literal.CutOff tail)
    (hRest : cursor.rest = quote :: (body ++ tail)) (file : String) :
    ∃ after, cursor.next file =
      .problem (cursor.diagnose file (.unterminatedString (String.singleton quote))) after := by
  have hOpen := Literal.readBody_closed_eq_false hInside hQuote hTail
  rw [next_of_quote hRest hQuote, Literal.read, Literal.Body.reading, hOpen]
  exact ⟨_, rfl⟩

/-- A closed literal is a token at its opening quote, and the cursor moves behind its closing
quote, whatever stands there. -/
theorem next_of_closed_literal {body beyond : List Char} (hQuote : Literal.isQuote quote = true)
    (hInside : Literal.Inside quote body)
    (hRest : cursor.rest = quote :: (body ++ quote :: beyond)) (file : String) :
    cursor.next file =
      .token
        { kind := .string, value := String.ofList (Literal.resolve body), line := cursor.line,
          column := cursor.column }
        (cursor.advanceBy (quote :: (body ++ [quote])).length) := by
  have hClosed := Literal.readBody_closed hInside (Literal.ne_of_isQuote hQuote).1 beyond
  have hCount : (quote :: (body ++ [quote])).length ≤ cursor.rest.length := by
    simp [hRest]
  rw [next_of_quote hRest hQuote, Literal.read, Literal.Body.reading, hClosed]
  have hWord : (cursor.advanceBy (quote :: (body ++ [quote])).length).afterWord = false :=
    afterWord_advanceBy hCount
  exact congrArg (Found.token _) (withAfterWord_eq hWord)

/-- A text that is nothing but a closed literal is scanned as one token to its end. -/
theorem scan_of_closed_literal {body : List Char} (hQuote : Literal.isQuote quote = true)
    (hInside : Literal.Inside quote body) (hRest : cursor.rest = quote :: (body ++ [quote]))
    (file : String) :
    ∃ after, after.rest = [] ∧ cursor.scan file =
      ⟨[{ kind := .string, value := String.ofList (Literal.resolve body), line := cursor.line,
          column := cursor.column }], none, after⟩ := by
  have hNext := next_of_closed_literal hQuote hInside hRest file
  have hEnd : (cursor.advanceBy (quote :: (body ++ [quote])).length).rest = [] := by
    rw [rest_advanceBy, hRest, List.drop_length]
  generalize cursor.advanceBy (quote :: (body ++ [quote])).length = after at hNext hEnd
  refine ⟨after, hEnd, ?_⟩
  rw [scan_eq, hNext]
  simp only [scan_of_rest_eq_nil hEnd]

end Cursor

/-- A placed token that is a literal in quotes of one kind, with the characters between them. -/
structure PlacedTile.Encloses (placed : PlacedTile) (quote : Char) (body : List Char) : Prop where
  hQuote : Literal.isQuote quote = true
  hInside : Literal.Inside quote body
  hRaw : placed.raw = quote :: body ++ [quote]
  hValue : placed.token.value = String.ofList (Literal.resolve body)

theorem PlacedTile.StandsIn.encloses {text : List Char} {first : Int} {afterWord : Bool}
    {placed : PlacedTile} (hStands : placed.StandsIn text first afterWord)
    (hKind : placed.token.kind = .string) : ∃ quote body, placed.Encloses quote body := by
  have hSpells := hStands.hRead.wellSpelled.1
  rw [hKind] at hSpells
  obtain ⟨quote, body, hRaw, hQuote, hInside, hStands⟩ := hSpells
  exact ⟨quote, body, hQuote, hInside, hRaw, by rw [← hStands.eq_resolve, String.ofList_toList]⟩

/-- A literal goes on behind a line feed exactly where a backslash takes the line feed with it. -/
theorem PlacedTile.Encloses.lineFeed_mem_iff {placed : PlacedTile} {quote : Char}
    {body : List Char} (hEncloses : placed.Encloses quote body) :
    '\n' ∈ placed.raw ↔
      ∃ front back, body = front ++ '\\' :: '\n' :: back ∧ Literal.Inside quote front := by
  have hQuote : '\n' ≠ quote := (Literal.ne_of_isQuote hEncloses.hQuote).2.1.symm
  rw [← hEncloses.hInside.lineFeed_mem_iff, hEncloses.hRaw]
  simp [hQuote]

/-- A literal covers a line feed exactly where a backslash takes the line feed with it, so none does
in a text without such a pair. Where the line of an open literal ends in any other way, the literal
is diagnosed. -/
theorem literal_spans_lines_iff_line_feed_escaped (source file : String) (line : Int) :
    (placedTokens source file line).map (·.token) = (scanSource source file line).tokens ∧
      (∀ placed ∈ placedTokens source file line, placed.token.kind = .string →
        source.toList.drop placed.offset = placed.raw ++ source.toList.drop placed.stop ∧
          ∃ quote body, placed.Encloses quote body ∧
            ('\n' ∈ placed.raw ↔ ∃ front back,
              body = front ++ '\\' :: '\n' :: back ∧ Literal.Inside quote front)) ∧
      (¬ ['\\', '\n'] <:+: source.toList → ∀ placed ∈ placedTokens source file line,
        placed.token.kind = .string → '\n' ∉ placed.raw) ∧
      ∀ (cursor : Cursor) (quote : Char) (body tail : List Char), Literal.isQuote quote = true →
        Literal.Inside quote body → Literal.CutOff tail →
        cursor.rest = quote :: (body ++ tail) → ∃ after, cursor.next file =
          .problem (cursor.diagnose file (.unterminatedString (String.singleton quote))) after := by
  refine ⟨token_placedTokens source file line, fun placed hMem hKind => ?_,
    fun hNone placed hMem hKind hFeed => hNone ?_,
    fun cursor quote body tail hQuote hInside hTail hRest =>
      Cursor.next_of_open_literal hQuote hInside hTail hRest file⟩
  · obtain ⟨afterWord, hStands, -⟩ := standsIn_of_mem_placedTokens hMem
    obtain ⟨quote, body, hEncloses⟩ := hStands.encloses hKind
    exact ⟨hStands.hText, quote, body, hEncloses, hEncloses.lineFeed_mem_iff⟩
  · obtain ⟨afterWord, hStands, -⟩ := standsIn_of_mem_placedTokens hMem
    obtain ⟨quote, body, hEncloses⟩ := hStands.encloses hKind
    obtain ⟨front, back, rfl, -⟩ := hEncloses.lineFeed_mem_iff.mp hFeed
    have hRaw : ['\\', '\n'] <:+: placed.raw :=
      ⟨quote :: front, back ++ [quote], by simp [hEncloses.hRaw]⟩
    have hText := hStands.hText ▸ (List.drop_suffix placed.offset source.toList).isInfix
    exact hRaw.trans ((List.prefix_append _ _).isInfix.trans hText)

theorem placedTokens_escaped_line_feed :
    placedTokens "\"a\\\nb\"" "" 1 =
      [{ gap := [], raw := "\"a\\\nb\"".toList, token := ⟨.string, "a\\\nb", 1, 1⟩,
         offset := 0 }] := by
  decide +kernel

theorem literal_spans_lines_iff_line_feed_escaped_between :
    ∃ placed ∈ placedTokens "\"a\\\nb\"" "" 1, placed.token.kind = .string ∧ '\n' ∈ placed.raw ∧
      ∃ quote body, placed.Encloses quote body ∧ ∃ front back,
        body = front ++ '\\' :: '\n' :: back ∧ Literal.Inside quote front := by
  have hTokens := placedTokens_escaped_line_feed
  obtain ⟨-, hLiterals, -⟩ := literal_spans_lines_iff_line_feed_escaped "\"a\\\nb\"" "" 1
  rw [hTokens, List.forall_mem_singleton] at hLiterals
  obtain ⟨-, quote, body, hEncloses, hFeed⟩ := hLiterals rfl
  rw [hTokens]
  exact ⟨_, List.mem_singleton_self _, rfl, by decide, quote, body, hEncloses,
    hFeed.mp (by decide)⟩

/-- A backslash keeps a literal open over the end of its line. -/
theorem literal_spans_lines_over_escaped_line_feed :
    ¬ ∀ source file line, ∀ placed ∈ placedTokens source file line,
      placed.token.kind = .string → '\n' ∉ placed.raw := by
  intro hNever
  have hTokens := hNever "\"a\\\nb\"" "" 1
  rw [placedTokens_escaped_line_feed, List.forall_mem_singleton] at hTokens
  exact hTokens rfl (by decide)

/-- Reading a literal for its meaning and passing over it move the cursor by the same characters,
whether the literal is closed or cut off. A token is found exactly where the last of them is a
closing quote that no backslash takes; elsewhere a problem is. -/
theorem reading_and_skipping_literals_agree (file : String) {cursor : Cursor} {quote : Char}
    {rest : List Char} (hRest : cursor.rest = quote :: rest)
    (hQuote : Literal.isQuote quote = true) :
    cursor.next file = cursor.place file (Literal.read quote rest) ∧
      (cursor.next file).cursor =
        cursor.advanceBy (quote :: (Literal.skip quote rest).1).length ∧
      (cursor.next file).cursor.rest = (Literal.skip quote rest).2 ∧
      ((∃ token after, cursor.next file = .token token after) ↔
        ∃ body, (Literal.skip quote rest).1 = body ++ [quote] ∧ Literal.Inside quote body) ∧
      ((∃ diagnostic after, cursor.next file = .problem diagnostic after) ↔
        ¬ ∃ body, (Literal.skip quote rest).1 = body ++ [quote] ∧ Literal.Inside quote body) := by
  rw [Cursor.next_of_quote hRest hQuote file, Cursor.cursor_place_literal hRest file,
    Cursor.place_literal_eq_token_iff, Cursor.place_literal_eq_problem_iff,
    ← Literal.closed_readBody_iff hQuote]
  refine ⟨rfl, rfl, ?_, Iff.rfl, Iff.rfl⟩
  have hText : cursor.rest =
      quote :: (Literal.skip quote rest).1 ++ (Literal.skip quote rest).2 := by
    rw [hRest, List.cons_append, Literal.skip_append]
  rw [Cursor.rest_advanceBy, hText, List.drop_left]

theorem reading_and_skipping_literals_agree_escaped :
    (Cursor.start "'\\''x".toList 1).rest = '\'' :: "\\''x".toList ∧
      Literal.isQuote '\'' = true ∧
      ((Cursor.start "'\\''x".toList 1).next "").cursor.rest = ['x'] ∧
      ∃ token after, (Cursor.start "'\\''x".toList 1).next "" = .token token after := by
  have hRest : (Cursor.start "'\\''x".toList 1).rest = '\'' :: "\\''x".toList := rfl
  have hQuote : Literal.isQuote '\'' = true := rfl
  obtain ⟨-, -, hAfter, hToken, -⟩ := reading_and_skipping_literals_agree "" hRest hQuote
  have hSkip : Literal.skip '\'' "\\''x".toList = ("\\''".toList, ['x']) := by decide
  rw [hSkip] at hAfter hToken
  exact ⟨hRest, hQuote, hAfter, hToken.mpr ⟨['\\', '\''], rfl, .escaped .nil⟩⟩

/-- Every text can be written as a literal in quotes of either kind. However its characters are
written, the literal is read as a single token whose value is the text, at the place where the
source text starts, and nothing is left behind it. -/
theorem literals_express_every_text (file : String) (line : Int) (value : String) {quote : Char}
    (hQuote : Literal.isQuote quote = true) :
    (∃ pieces, List.Forall₂ (Literal.Writes quote) value.toList pieces) ∧
      ∀ pieces, List.Forall₂ (Literal.Writes quote) value.toList pieces →
        let scan := scanSource (String.ofList (quote :: (pieces.flatten ++ [quote]))) file line
        scan.tokens = [{ kind := .string, value, line, column := 1 }] ∧ scan.problem = none ∧
          scan.cursor.rest = [] := by
  refine ⟨Literal.exists_pieces hQuote value.toList, fun pieces hPieces => ?_⟩
  intro scan
  obtain ⟨hInside, hResolve⟩ := Literal.inside_of_pieces hPieces
  obtain ⟨after, hEnd, hScan⟩ :=
    (Cursor.start (quote :: (pieces.flatten ++ [quote])) line).scan_of_closed_literal hQuote hInside
      rfl file
  rw [hResolve, String.ofList_toList] at hScan
  have hSource : scan = ⟨[{ kind := .string, value, line, column := 1 }], none, after⟩ := by
    simp only [scan, scanSource, String.toList_ofList]
    exact hScan
  rw [hSource]
  exact ⟨rfl, rfl, hEnd⟩

/-- A quote and a backslash are written by their escapes, the other quote and a letter that has a
meaning behind a backslash as they are. -/
theorem literals_express_every_text_mixed :
    let pieces := [['\\', '\''], ['"'], ['\\', '\\'], ['n']]
    let scan := scanSource "'\\'\"\\\\n'" "" 7
    Literal.isQuote '\'' = true ∧
      List.Forall₂ (Literal.Writes '\'') "'\"\\n".toList pieces ∧
      scan.tokens = [⟨.string, "'\"\\n", 7, 1⟩] ∧ scan.problem = none ∧
      scan.cursor.rest = [] := by
  intro pieces scan
  have hQuote : Literal.isQuote '\'' = true := rfl
  have hPieces : List.Forall₂ (Literal.Writes '\'') "'\"\\n".toList pieces :=
    .cons (.escape (by decide)) (.cons (.itself (by decide) (by decide) (by decide))
      (.cons (.escape (by decide)) (.cons (.itself (by decide) (by decide) (by decide)) .nil)))
  have hSource : String.ofList ('\'' :: (pieces.flatten ++ ['\''])) = "'\\'\"\\\\n'" := by decide
  have hRead := (literals_express_every_text "" 7 "'\"\\n" hQuote).2 pieces hPieces
  rw [hSource] at hRead
  exact ⟨hQuote, hPieces, hRead⟩

end FlatSyntax
