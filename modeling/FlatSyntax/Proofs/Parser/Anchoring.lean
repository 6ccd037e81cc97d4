import FlatSyntax.Proofs.Analysis
import FlatSyntax.Proofs.Lexeme.Boundary
import FlatSyntax.Proofs.Outline
import FlatSyntax.Proofs.Scanner.Layout
import Mathlib.Data.List.Basic

/-! Where symbols stand. A declaration is registered by a token, and the token before it tells that
its name is a whole word or a whole list of generic arguments in the source text. Windows follow one
another, so symbols are registered in reading order and an outline has nothing to sort. -/
namespace FlatSyntax

/-- The place of a symbol in the text that declares it: its name is a word there that is not
reserved and that goes on to neither side, or it is what stands between angle brackets behind a
word. -/
inductive Symbol.Anchored (text : List Char) (symbol : Symbol) : Prop where
  | word {before after : List Char} (hText : text = before ++ symbol.name.toList ++ after)
      (hPosition : symbol.position = Text.positionAt text 1 before.length)
      (hWord : Word.IsWord symbol.name.toList) (hFree : ∀ tag, (symbol.name, tag) ∉ Word.reserved)
      (hBefore : ∀ c ∈ before.getLast?, Word.isPart c = false)
      (hAfter : ∀ c ∈ after.head?, Word.isPart c = false) : Anchored text symbol
  | arguments {before word after : List Char}
      (hText : text = before ++ word ++ '<' :: symbol.name.toList ++ '>' :: after)
      (hPosition : symbol.position = Text.positionAt text 1 (before ++ word).length)
      (hWord : Word.IsWord word) : Anchored text symbol

/-- A token that may name a declaration where it stands directly behind the token `previous` of the
same window. -/
inductive Token.Names (previous token : Token) : Prop where
  | word (hKind : token.kind = .identifier)
      (hPrevious : previous.kind = .identifier ∨ previous.value ∈ ["struct", "namespace", "*"]) :
      Names previous token
  | arguments (hKind : token.kind = .angle) : Names previous token

theorem Text.isDigit_of_char_isDigit {c : Char} (hDigit : c.isDigit = true) : isDigit c = true := by
  simp only [Char.isDigit, Bool.and_eq_true, decide_eq_true_eq, ge_iff_le,
    UInt32.le_iff_toNat_le] at hDigit
  have hBounds : 0x30 ≤ c.toNat ∧ c.toNat ≤ 0x39 := hDigit
  unfold isDigit digitRanges
  rw [CodeRanges.covers, if_pos (by omega)]
  simp only [decide_eq_true_eq]
  omega

/-- A character of words starts a word or is a digit. -/
theorem Word.isPart_eq_false {c : Char} (hStart : isStart c = false)
    (hDigit : Text.isDigit c = false) : isPart c = false := by
  have hAscii : c.isDigit = false := by
    cases hIs : c.isDigit with
    | false => rfl
    | true =>
        rw [Text.isDigit_of_char_isDigit hIs] at hDigit
        cases hDigit
  simp only [isStart, Bool.or_eq_false_iff] at hStart
  simp only [isPart, Char.isAlphanum, hStart.1, hStart.2, hAscii, Bool.or_self]

theorem Word.isPart_of_isStart {c : Char} (hStart : isStart c = true) : isPart c = true := by
  simp only [isStart, Bool.or_eq_true] at hStart
  rcases hStart with hAlpha | hUnderscore
  · simp only [isPart, Char.isAlphanum, hAlpha, Bool.true_or]
  · simp only [isPart, hUnderscore, Bool.or_true]

theorem Word.isPart_of_mem {word : List Char} (hWord : IsWord word) {c : Char} (hMem : c ∈ word) :
    isPart c = true := by
  obtain ⟨first, more, rfl, hFirst, hMore⟩ := hWord
  rcases List.mem_cons.mp hMem with rfl | hMem
  · exact isPart_of_isStart hFirst
  · exact hMore c hMem

theorem Number.isDigit_of_isNumeral {c : Char} {text : List Char}
    (hNumeral : IsNumeral (c :: text)) : Text.isDigit c = true := by
  rcases hNumeral with hDigits | ⟨whole, fraction, hText, hWhole, -⟩
  · exact hDigits.2 c List.mem_cons_self
  · obtain ⟨d, whole, rfl⟩ := List.exists_cons_of_ne_nil hWhole.1
    rw [(List.cons.inj hText).1]
    exact hWhole.2 d List.mem_cons_self

namespace TokenKind

variable {kind : TokenKind} {value raw after : List Char}

theorem isWord_spells (hSpells : kind.Spells value raw) (hWord : kind.isWord = true) :
    Word.IsWord raw := by
  cases kind with
  | identifier | keyword | headKeyword | bodyKeyword => exact hSpells.2.1
  | _ => cases hWord

/-- Where a word follows directly, no token but a number ends in a character of words. -/
theorem not_isPart_getLast (hSpells : kind.Spells value raw) (hStops : kind.Stops raw after)
    (hNumber : kind ≠ .number) (hAfter : ∃ c ∈ after.head?, Word.isPart c = true) :
    ∀ c ∈ raw.getLast?, Word.isPart c = false := by
  obtain ⟨d, hHead, hPart⟩ := hAfter
  have hLine (hFeed : ∀ c ∈ after.head?, c = '\n') : False := by
    rw [hFeed d hHead] at hPart
    cases hPart
  have hSingle {e : Char} (hOther : Word.isPart e = false) :
      ∀ c ∈ some e, Word.isPart c = false := by
    rintro c ⟨⟩
    exact hOther
  cases kind with
  | identifier | keyword | headKeyword | bodyKeyword =>
      rw [hStops d hHead] at hPart
      cases hPart
  | number => exact absurd rfl hNumber
  | staticMarker =>
      rw [hSpells.2]
      exact hSingle rfl
  | symbol =>
      obtain ⟨-, ⟨c, e, rfl, hPair⟩ | ⟨c, rfl, -, hStart, hDigit, -⟩⟩ := hSpells
      · have hPairs : ∀ pair ∈ Operator.pairs, Word.isPart pair.2 = false := by decide
        exact hSingle (hPairs _ hPair)
      · exact hSingle (Word.isPart_eq_false hStart hDigit)
  | round | curly | square | angle =>
      rw [hSpells, List.getLast?_concat]
      exact hSingle rfl
  | directive => exact (hLine hStops).elim
  | comment =>
      obtain ⟨inner, -, ⟨rfl, -⟩ | ⟨rfl, -⟩⟩ := hSpells
      · exact (hLine (hStops ⟨inner, rfl⟩)).elim
      · rw [Comment.closing, List.append_cons, List.getLast?_concat]
        exact hSingle rfl
  | string =>
      obtain ⟨quote, body, rfl, hQuote, -⟩ := hSpells
      have hEither : quote = '"' ∨ quote = '\'' := by simpa [Literal.isQuote] using hQuote
      rw [List.getLast?_concat]
      rcases hEither with rfl | rfl <;> exact hSingle rfl

end TokenKind

/-- No number has the value of a token that a name may stand behind. -/
theorem Token.not_number_of_value {value : String} (hMem : value ∈ ["struct", "namespace", "*"])
    {raw : List Char} : ¬ TokenKind.Spells .number value.toList raw := by
  intro hSpells
  obtain ⟨c, rest, hValue, hOther⟩ :
      ∃ c rest, value.toList = c :: rest ∧ Text.isDigit c = false := by
    simp only [List.mem_cons, List.not_mem_nil, or_false] at hMem
    rcases hMem with rfl | rfl | rfl
    · exact ⟨'s', "truct".toList, rfl, by decide +kernel⟩
    · exact ⟨'n', "amespace".toList, rfl, by decide +kernel⟩
    · exact ⟨'*', [], rfl, by decide +kernel⟩
  have hDigit : Text.isDigit c = true := by
    apply Number.isDigit_of_isNumeral
    rw [← hValue, ← hSpells.1]
    exact hSpells.2
  rw [hOther] at hDigit
  cases hDigit

namespace Laid

variable {text before : List Char} {first : Int} {afterWord : Bool} {previous tile : Tile}
  {tiles : List Tile}

/-- A word behind a tile that is no number is a whole word of the text. -/
theorem exists_word (hLaid : Laid text first before afterWord (previous :: tile :: tiles))
    (hKind : tile.token.kind = .identifier) (hNumber : previous.token.kind ≠ .number) :
    ∃ front after, text = front ++ tile.token.value.toList ++ after ∧
      tile.token.position = Text.positionAt text first front.length ∧
      Word.IsWord tile.token.value.toList ∧ (∀ tag, (tile.token.value, tag) ∉ Word.reserved) ∧
      (∀ c ∈ front.getLast?, Word.isPart c = false) ∧
      ∀ c ∈ after.head?, Word.isPart c = false := by
  cases hLaid with
  | @tile _ between _ _ _ hWhole _ _ hPrevious _ hMore =>
  cases hMore with
  | @tile _ after _ _ _ hText hGap _ hRead hPosition _ =>
      obtain ⟨hSpells, hStops⟩ := hRead.wellSpelled
      rw [hKind] at hSpells hStops
      obtain ⟨hRaw, hWord, hFree⟩ := hSpells
      rw [hRaw] at hText hWord hFree
      rw [String.ofList_toList] at hFree
      refine ⟨_, after, hText, hPosition, hWord, hFree, ?_, hStops⟩
      by_cases hEmpty : tile.gap = []
      · obtain ⟨c, more, hValue, hStart, -⟩ := hWord
        obtain ⟨hBeforeSpells, hBeforeStops⟩ := hPrevious.wellSpelled
        rw [hEmpty, List.append_nil] at hText
        have hBetween : between = tile.token.value.toList ++ after := by
          rw [List.append_assoc] at hText
          exact List.append_cancel_left (hWhole.symm.trans hText)
        have hNext : c ∈ between.head? := by
          rw [hBetween, hValue]
          rfl
        rw [hEmpty, List.append_nil, List.getLast?_append_of_ne_nil _ hPrevious.raw_ne_nil]
        exact TokenKind.not_isPart_getLast hBeforeSpells hBeforeStops hNumber
          ⟨c, hNext, Word.isPart_of_isStart hStart⟩
      · rw [List.getLast?_append_of_ne_nil _ hEmpty]
        exact fun c hLast => Word.isPart_of_isGap (hGap c (List.mem_of_mem_getLast? hLast))

/-- Generic arguments stand between angle brackets directly behind a word of the text. -/
theorem exists_arguments (hLaid : Laid text first before afterWord (previous :: tile :: tiles))
    (hKind : tile.token.kind = .angle) :
    ∃ front word after,
      text = front ++ word ++ '<' :: tile.token.value.toList ++ '>' :: after ∧
      tile.token.position = Text.positionAt text first (front ++ word).length ∧
      Word.IsWord word := by
  cases hLaid with
  | tile _ _ _ hPrevious _ hMore =>
  cases hMore with
  | @tile _ after _ _ _ hText _ _ hRead hPosition _ =>
      obtain ⟨hSpells, -⟩ := hRead.wellSpelled
      rw [hKind] at hSpells
      have hBehind := hRead.afterWord_of_angle hKind
      rw [Bool.and_eq_true, List.isEmpty_iff] at hBehind
      obtain ⟨hGap, hWord⟩ := hBehind
      rw [hGap, List.append_nil] at hText hPosition
      refine ⟨before ++ previous.gap, previous.raw, after, ?_, hPosition,
        TokenKind.isWord_spells hPrevious.wellSpelled.1 hWord⟩
      rw [hText, hSpells]
      simp

end Laid

namespace Form

variable {jsonMode : Bool} {window : List Token} {form : Form}

/-- A declaration is registered by a token of its window that is not the first one. -/
theorem exists_names (hForm : ofWindow? jsonMode window = some form) {kind : SymbolKind}
    {token : Token} (hDeclared : form.declared window = some (kind, token)) :
    ∃ previous, [previous, token] <:+: window.take form.width ∧ previous.Names token := by
  have hFits := fits_of_ofWindow? hForm
  cases form with
  | structDecl | namespaceDecl =>
      obtain ⟨head, name, body, more, rfl, hHead, hName, -, -⟩ :=
        Pattern.exists_three_of_fits hFits
      cases hDeclared
      have hValue : head.value ∈ ["struct", "namespace", "*"] := by
        rw [eq_of_beq hHead]
        decide
      exact ⟨head, ⟨[], [body], rfl⟩, .word (eq_of_beq hName) (Or.inr hValue)⟩
  | structVar =>
      obtain ⟨head, name, body, more, rfl, hHead, hName, -, -⟩ :=
        Pattern.exists_three_of_fits hFits
      cases hDeclared
      exact ⟨head, ⟨[], [body], rfl⟩, .word (eq_of_beq hName) (Or.inl (eq_of_beq hHead))⟩
  | voidFunction =>
      obtain ⟨head, name, parameters, _, rfl, hHead, hName, -, hBody⟩ :=
        Pattern.exists_three_of_fits hFits
      obtain ⟨body, more, rfl, -, -⟩ := Pattern.fits_cons_iff.mp hBody
      cases hDeclared
      have hKind : head.kind = .identifier := eq_of_beq (Bool.and_eq_true_iff.mp hHead).1
      exact ⟨head, ⟨[], [parameters, body], rfl⟩, .word (eq_of_beq hName) (Or.inl hKind)⟩
  | function =>
      obtain ⟨head, name, parameters, _, rfl, hHead, hName, -, hBody⟩ :=
        Pattern.exists_three_of_fits hFits
      obtain ⟨body, more, rfl, -, -⟩ := Pattern.fits_cons_iff.mp hBody
      cases hDeclared
      exact ⟨head, ⟨[], [parameters, body], rfl⟩,
        .word (eq_of_beq hName) (Or.inl (eq_of_beq hHead))⟩
  | plainVariable =>
      obtain ⟨head, name, more, rfl, hHead, hName, -⟩ := Pattern.exists_two_of_fits hFits
      cases hDeclared
      exact ⟨head, ⟨[], [], rfl⟩, .word (eq_of_beq hName) (Or.inl (eq_of_beq hHead))⟩
  | genericVariable =>
      obtain ⟨head, arguments, name, more, rfl, -, hArguments, -, -⟩ :=
        Pattern.exists_three_of_fits hFits
      cases hDeclared
      exact ⟨head, ⟨[], [name], rfl⟩, .arguments (eq_of_beq hArguments)⟩
  | pointer =>
      obtain ⟨head, star, name, more, rfl, -, hStar, hName, -⟩ :=
        Pattern.exists_three_of_fits hFits
      cases hDeclared
      have hValue : star.value ∈ ["struct", "namespace", "*"] := by
        rw [eq_of_beq hStar]
        decide
      exact ⟨star, ⟨[head], [], rfl⟩, .word (eq_of_beq hName) (Or.inr hValue)⟩
  | _ => simp [declared] at hDeclared

end Form

/-- The symbol is registered by a token of the list, and the token before that is one that a name
may stand behind. -/
def Symbol.NamedIn (tokens : List Token) (symbol : Symbol) : Prop :=
  ∃ previous token, [previous, token] <:+: tokens ∧ previous.Names token ∧
    symbol.name = token.value ∧ symbol.position = token.position

theorem Symbol.NamedIn.mono {tokens more : List Token} {symbol : Symbol}
    (hNamed : symbol.NamedIn tokens) (hInfix : tokens <:+: more) : symbol.NamedIn more := by
  obtain ⟨previous, token, hTokens, hNames⟩ := hNamed
  exact ⟨previous, token, hTokens.trans hInfix, hNames⟩

namespace RuleSet

variable {rules : RuleSet}

/-- The symbols of a walk by the built-in forms are named by tokens, in the order of these. -/
theorem symbols_walk (hPinned : rules.pinned = []) (previous : Option Token) (index : Nat)
    (window : List Token) :
    let symbols := (rules.walk previous index window).constructs.filterMap (·.symbol)
    (symbols.map (·.position)).Sublist (window.map Token.position) ∧
      ∀ symbol ∈ symbols, symbol.NamedIn window := by
  induction window using Form.induction_ofWindow? rules.jsonMode generalizing previous index with
  | hNil =>
      rw [walk]
      exact ⟨.slnil, List.forall_mem_nil _⟩
  | hForm window form hForm ih =>
      obtain ⟨hOrder, hNamed⟩ := ih window[form.width - 1]? (index + form.width)
      have hLater (symbol : Symbol) (hMem : symbol ∈ (rules.walk window[form.width - 1]?
          (index + form.width) (window.drop form.width)).constructs.filterMap (·.symbol)) :
          symbol.NamedIn window :=
        (hNamed symbol hMem).mono (List.drop_suffix form.width window).isInfix
      rw [walk_of_ofWindow? hPinned hForm]
      cases hDeclared : form.declared window with
      | none =>
          have hNone : (form.construct previous window).symbol = none := by
            rw [Form.symbol_construct, hDeclared]
            rfl
          simp only [List.filterMap_cons_none hNone]
          exact ⟨hOrder.trans ((List.drop_sublist _ _).map _), hLater⟩
      | some declared =>
          obtain ⟨kind, token⟩ := declared
          obtain ⟨before, hInfix, hNames⟩ := Form.exists_names hForm hDeclared
          have hSymbol := Form.symbol_construct form previous window
          rw [hDeclared, Option.map_some] at hSymbol
          simp only [List.filterMap_cons_some hSymbol, List.map_cons]
          constructor
          · have hHead : [token].Sublist (window.take form.width) :=
              (List.suffix_cons before [token]).sublist.trans hInfix.sublist
            have hBoth := (hHead.map Token.position).append hOrder
            rw [← List.map_append, List.take_append_drop] at hBoth
            exact hBoth
          · refine List.forall_mem_cons.mpr ⟨?_, hLater⟩
            exact ⟨before, token, hInfix.trans (List.take_prefix _ _).isInfix, hNames, rfl, rfl⟩

end RuleSet

/-- A symbol that is named in the tokens of a layout is anchored in the text. -/
theorem Laid.anchored {text before : List Char} {afterWord : Bool} {tiles : List Tile}
    (hLaid : Laid text 1 before afterWord tiles) {symbol : Symbol}
    (hNamed : symbol.NamedIn (tiles.map Tile.token)) : symbol.Anchored text := by
  obtain ⟨_, _, ⟨front, back, hTokens⟩, hNames, hName, hPosition⟩ := hNamed
  rw [List.append_assoc] at hTokens
  obtain ⟨earlier, _, rfl, -, hWindow⟩ := List.map_eq_append_iff.mp hTokens.symm
  obtain ⟨previous, _, rfl, rfl, hLater⟩ := List.map_eq_cons_iff.mp hWindow
  obtain ⟨tile, later, rfl, rfl, -⟩ := List.map_eq_cons_iff.mp hLater
  obtain ⟨_, _, hAt⟩ := hLaid.suffix
  cases hNames with
  | word hKind hPrevious =>
      have hNumber : previous.token.kind ≠ .number := by
        intro hNumber
        have hSpells := hAt.spells_head
        rw [hNumber] at hPrevious hSpells
        rcases hPrevious with hOther | hValue
        · cases hOther
        · exact Token.not_number_of_value hValue hSpells
      obtain ⟨_, _, hText, hPlace, hWord, hFree, hBefore, hAfter⟩ := hAt.exists_word hKind hNumber
      rw [← hName] at hText hWord hFree
      exact .word hText (hPosition.trans hPlace) hWord hFree hBefore hAfter
  | arguments hKind =>
      obtain ⟨_, _, _, hText, hPlace, hWord⟩ := hAt.exists_arguments hKind
      rw [← hName] at hText
      exact .arguments hText (hPosition.trans hPlace) hWord

/-- Whenever a source text is analyzed, its symbols stand one behind the other in the text, each at
a place where its name is written: as a whole word that is not reserved, or as the generic arguments
directly behind a word. So an outline lists them in the order of registration, no two of them at the
same position. -/
theorem symbols_are_anchored {source file : String} {jsonMode : Bool} {analysis : Analysis}
    (hAnalysis : Analysis.ofSource source file jsonMode = .ok analysis) :
    let symbols := analysis.table.symbols
    (symbols.Pairwise fun a b => a.position.Before b.position) ∧
      (∀ symbol ∈ symbols, symbol.Anchored source.toList) ∧
      outline symbols = symbols.map .ofSymbol ∧
      (outline symbols).Pairwise fun a b => a.position.Before b.position := by
  intro symbols
  obtain ⟨hClean, hSymbols⟩ := Analysis.exists_walk hAnalysis
  let rules : RuleSet := { jsonMode }
  have hPinned : rules.pinned = [] := rfl
  obtain ⟨hPositions, hNamed⟩ :=
    RuleSet.symbols_walk hPinned none 0 (scanSource source file 1).tokens
  rw [← hSymbols] at hPositions hNamed
  have hOrder : symbols.Pairwise fun a b => a.position.Before b.position := by
    obtain ⟨-, hLocated⟩ := (Cursor.tracks_start source.toList 1).scan file
    have hTokens := List.pairwise_map.mpr hLocated.pairwise_before
    exact List.pairwise_map.mp (hTokens.sublist hPositions)
  have hOutline := outline_eq_map hOrder
  refine ⟨hOrder, fun symbol hMem => ?_, hOutline, ?_⟩
  · apply (laid_scanSource hClean).anchored
    rw [Cursor.tokens_tiles]
    exact hNamed symbol hMem
  · rw [hOutline]
    exact List.pairwise_map.mpr hOrder

theorem symbols_are_anchored_generic :
    let source := "Vec<int> v\n// a point\nFoo x"
    let symbols : List Symbol :=
      [⟨.binding, "int", ⟨1, 4⟩, ""⟩, ⟨.binding, "x", ⟨3, 5⟩, "a point"⟩]
    let entries : List OutlineEntry :=
      [⟨.binding, "int", ⟨1, 4⟩, ""⟩, ⟨.binding, "x", ⟨3, 5⟩, "a point"⟩]
    let analysis : Analysis :=
      { file := ""
        tokens := [⟨.identifier, "Vec", 1, 1⟩, ⟨.angle, "int", 1, 4⟩, ⟨.identifier, "v", 1, 10⟩,
          ⟨.comment, "a point", 2, 1⟩, ⟨.identifier, "Foo", 3, 1⟩, ⟨.identifier, "x", 3, 5⟩]
        nodes := [⟨.variableDecl, [⟨.identifier, "v<int>", 1, 10⟩]⟩,
          ⟨.other, [⟨.comment, "a point", 2, 1⟩]⟩, ⟨.variableDecl, [⟨.identifier, "x", 3, 5⟩]⟩]
        table := ⟨symbols⟩
        log := symbols.map .registered ++ [.parsed 6 3 2, .analyzed "" 6 3 2] }
    Analysis.ofSource source "" false = .ok analysis ∧
      (symbols.Pairwise fun a b => a.position.Before b.position) ∧
      (∀ symbol ∈ symbols, symbol.Anchored source.toList) ∧
      outline symbols = entries ∧
      (outline symbols).Pairwise fun a b => a.position.Before b.position := by
  intro source symbols entries analysis
  have hFound : (Analysis.ofSource source "" false).toOption = some analysis := by
    decide +kernel
  have hAnalysis : Analysis.ofSource source "" false = .ok analysis := by
    cases hResult : Analysis.ofSource source "" false with
    | error diagnostic =>
        rw [hResult] at hFound
        cases hFound
    | ok found =>
        rw [hResult] at hFound
        exact congrArg Except.ok (Option.some.inj hFound)
  obtain ⟨hOrder, hAnchored, hOutline, hEntries⟩ := symbols_are_anchored hAnalysis
  exact ⟨hAnalysis, hOrder, hAnchored, hOutline.trans (by decide +kernel), hEntries⟩

end FlatSyntax
