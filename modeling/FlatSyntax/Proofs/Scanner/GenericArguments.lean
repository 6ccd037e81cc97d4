import FlatSyntax.Proofs.Lexeme.GenericArguments
import FlatSyntax.Proofs.Scanner.Span

/-! Scanning at an angle bracket. Behind a word the bracket opens generic arguments where a bracket
closes it before any character that no type name holds; everywhere else it is a comparison, which is
read as if no arguments had been looked for. -/
namespace FlatSyntax

/-- An angle bracket makes an operator of two characters with an equals sign only. -/
theorem Operator.read_angle (rest : List Char) :
    read '<' rest =
      .lexeme (.verbatim .symbol '<' (if rest.head? = some '=' then ['='] else []))
        (if rest.head? = some '=' then rest.tail else rest) := by
  have hSingle (after : List Char) :
      read.single '<' after = .lexeme (.verbatim .symbol '<' []) after :=
    if_pos (by decide)
  have hPair (c : Char) : pairs.contains ('<', c) = true ↔ c = '=' := by
    simp [pairs]
  cases rest with
  | nil => exact hSingle []
  | cons c rest =>
      by_cases hEqual : c = '='
      · simp only [read, hEqual, hPair, List.head?_cons, List.tail_cons, if_true]
      · simp only [read, hEqual, hPair, hSingle, List.head?_cons, Option.some.injEq, if_false]

/-- The token holds the generic arguments whose bracket is closed at the offset `stop`. -/
structure PlacedTile.HoldsArguments (text : List Char) (placed : PlacedTile) (stop : Nat) :
    Prop where
  hKind : placed.token.kind = .angle
  hValue : placed.token.value = String.ofList (text.extract (placed.offset + 1) stop)
  hStop : placed.stop = stop + 1

/-- The token is a comparison, and is read as where no word stands before it. -/
structure PlacedTile.IsComparison (text : List Char) (placed : PlacedTile) : Prop where
  hKind : placed.token.kind = .symbol
  hValue : placed.token.value = if text[placed.offset + 1]? = some '=' then "<=" else "<"
  hStop : placed.stop = placed.offset + placed.token.value.length
  hRead : placed.IsRead false (text.drop placed.stop)

namespace PlacedTile.StandsIn

variable {text rest : List Char} {first : Int} {afterWord : Bool} {placed : PlacedTile}

/-- The lexeme of a token that starts with an angle bracket. -/
theorem exists_lexeme_of_angle (hStands : placed.StandsIn text first afterWord)
    (hRest : text.drop placed.offset = '<' :: rest) :
    ∃ lexeme : Lexeme, placed.raw = lexeme.raw ∧ placed.token.kind = lexeme.kind ∧
      placed.token.value = String.ofList lexeme.value ∧
      Reading.ofText afterWord '<' rest = .lexeme lexeme (text.drop placed.stop) := by
  obtain ⟨lexeme, hRaw, hKind, hValue, hStarts⟩ := hStands.hRead
  rw [← hRaw, ← hStands.hText, hRest] at hStarts
  exact ⟨lexeme, hRaw, hKind, hValue, hStarts.eq_ofText.symm⟩

/-- Behind a word the arguments are taken where their bracket is closed. -/
theorem holdsArguments {stop : Nat} (hStands : placed.StandsIn text first true)
    (hRest : text.drop placed.offset = '<' :: rest)
    (hCloses : GenericArguments.ClosesAt text placed.offset stop) :
    placed.HoldsArguments text stop ∧ GenericArguments.IsArguments placed.token.value.toList := by
  obtain ⟨inner, after, rfl, hInner, rfl⟩ := (GenericArguments.closesAt_iff hRest).mp hCloses
  have hRead := GenericArguments.read?_eq_some_iff.mpr ⟨inner, after, rfl, hInner, rfl⟩
  obtain ⟨lexeme, hRaw, hKind, hValue, hReading⟩ := hStands.exists_lexeme_of_angle hRest
  rw [Reading.ofText_angle, if_pos rfl, hRead, Option.getD_some] at hReading
  obtain ⟨rfl, -⟩ := Reading.lexeme.inj hReading
  refine ⟨⟨hKind, ?_, ?_⟩, ?_⟩
  · rw [hValue, GenericArguments.extract_behind hRest, List.take_left]
  · rw [PlacedTile.stop, hRaw]
    simp [Lexeme.raw, Nat.add_assoc]
  · rw [hValue, String.toList_ofList]
    exact hInner

/-- Where no arguments stand behind a word, a comparison is read as it is anywhere else. -/
theorem isComparison (hStands : placed.StandsIn text first afterWord)
    (hRest : text.drop placed.offset = '<' :: rest)
    (hNone : ¬ (afterWord = true ∧ ∃ stop, GenericArguments.ClosesAt text placed.offset stop)) :
    placed.IsComparison text := by
  obtain ⟨lexeme, hRaw, hKind, hValue, hReading⟩ := hStands.exists_lexeme_of_angle hRest
  have hOperator : Reading.ofText afterWord '<' rest = Operator.read '<' rest := by
    rw [Reading.ofText_angle]
    cases afterWord with
    | false => rfl
    | true =>
        have hRead : GenericArguments.read? rest = none := by
          refine Option.eq_none_iff_forall_ne_some.mpr fun reading hRead => hNone ⟨rfl, ?_⟩
          obtain ⟨inner, after, hText, hInner, -⟩ := GenericArguments.read?_eq_some_iff.mp hRead
          exact ⟨_, (GenericArguments.closesAt_iff hRest).mpr ⟨inner, after, hText, hInner, rfl⟩⟩
        rw [hRead]
        rfl
  have hRead : placed.IsRead false (text.drop placed.stop) := by
    refine ⟨lexeme, hRaw, hKind, hValue, ?_⟩
    rw [← hRaw, ← hStands.hText, hRest, ← Reading.ofText_eq_iff, Reading.ofText_angle, ← hReading,
      hOperator]
    rfl
  have hNext : text[placed.offset + 1]? = rest.head? :=
    (GenericArguments.getElem?_behind hRest 0).trans List.head?_eq_getElem?.symm
  rw [hOperator, Operator.read_angle, ← hNext] at hReading
  obtain ⟨rfl, -⟩ := Reading.lexeme.inj hReading
  refine ⟨hKind, ?_, ?_, hRead⟩
  · rw [hValue, Lexeme.verbatim]
    split <;> rfl
  · rw [PlacedTile.stop, hRaw, hValue, String.length_ofList]
    rfl

end PlacedTile.StandsIn

section Scan

variable {source file : String} {line : Int} {placed : PlacedTile}

/-- A token at an angle bracket holds arguments where they stand behind a word, or else is a
comparison. -/
theorem angle_iff_of_mem_placedTokens (hMem : placed ∈ placedTokens source file line)
    (hChar : source.toList[placed.offset]? = some '<') :
    (placed.token.kind = .angle ↔
        WordEndsAt (placedTokens source file line) placed.offset ∧
          ∃ stop, GenericArguments.ClosesAt source.toList placed.offset stop) ∧
      (placed.token.kind = .angle → ∀ stop,
        GenericArguments.ClosesAt source.toList placed.offset stop →
          placed.HoldsArguments source.toList stop) ∧
      (placed.token.kind ≠ .angle → placed.IsComparison source.toList) := by
  obtain ⟨afterWord, hStands, hWord⟩ := standsIn_of_mem_placedTokens hMem
  obtain ⟨rest, hRest⟩ : ∃ rest, source.toList.drop placed.offset = '<' :: rest := by
    rw [← List.head?_drop] at hChar
    exact List.head?_eq_some_iff.mp hChar
  by_cases hHere :
      afterWord = true ∧ ∃ stop, GenericArguments.ClosesAt source.toList placed.offset stop
  · obtain ⟨rfl, stop, hCloses⟩ := hHere
    have hKind := (hStands.holdsArguments hRest hCloses).1.hKind
    exact ⟨⟨fun _ => ⟨hWord.mp rfl, stop, hCloses⟩, fun _ => hKind⟩,
      fun _ _ hCloses => (hStands.holdsArguments hRest hCloses).1,
      fun hOther => absurd hKind hOther⟩
  · have hComparison := hStands.isComparison hRest hHere
    have hOther : placed.token.kind ≠ .angle := by
      rw [hComparison.hKind]
      decide
    exact ⟨⟨fun hKind => absurd hKind hOther,
        fun ⟨hEnds, hCloses⟩ => absurd ⟨hWord.mpr hEnds, hCloses⟩ hHere⟩,
      fun hKind => absurd hKind hOther, fun _ => hComparison⟩

/-- What generic arguments hold has matching brackets and nothing but the characters of type
names. -/
theorem isArguments_of_angle (hMem : placed ∈ placedTokens source file line)
    (hKind : placed.token.kind = .angle) :
    source.toList[placed.offset]? = some '<' ∧
      GenericArguments.IsArguments placed.token.value.toList := by
  obtain ⟨afterWord, hStands, hWord⟩ := standsIn_of_mem_placedTokens hMem
  obtain rfl : afterWord = true := hStands.hRead.afterWord_of_angle hKind
  obtain ⟨rest, hRest⟩ : ∃ rest, source.toList.drop placed.offset = '<' :: rest := by
    have hSpells := hStands.hRead.wellSpelled.1
    rw [hKind] at hSpells
    have hRaw : placed.raw = '<' :: placed.token.value.toList ++ ['>'] := hSpells
    rw [hStands.hText, hRaw]
    exact ⟨_, rfl⟩
  have hChar : source.toList[placed.offset]? = some '<' := by
    rw [← List.head?_drop, hRest]
    rfl
  obtain ⟨-, stop, hCloses⟩ := (angle_iff_of_mem_placedTokens hMem hChar).1.mp hKind
  exact ⟨hChar, (hStands.holdsArguments hRest hCloses).2⟩

end Scan

/-- A token at an angle bracket holds generic arguments exactly where a word ends at the bracket and
the bracket is closed, and is a comparison elsewhere. The tokens stand in the text one behind the
other, and arguments stand on one line, with matching brackets of their own. -/
theorem angle_iff_closesAt (source file : String) (line : Int) :
    (placedTokens source file line).map (·.token) = (scanSource source file line).tokens ∧
      (placedTokens source file line).Pairwise (fun placed later => placed.stop ≤ later.offset) ∧
      (∀ placed ∈ placedTokens source file line,
        source.toList.drop placed.offset = placed.raw ++ source.toList.drop placed.stop ∧
          placed.token.position = Text.positionAt source.toList line placed.offset) ∧
      (∀ placed ∈ placedTokens source file line, source.toList[placed.offset]? = some '<' →
        (placed.token.kind = .angle ↔
          WordEndsAt (placedTokens source file line) placed.offset ∧
            ∃ stop, GenericArguments.ClosesAt source.toList placed.offset stop) ∧
        (placed.token.kind = .angle → ∀ stop,
          GenericArguments.ClosesAt source.toList placed.offset stop →
            placed.HoldsArguments source.toList stop) ∧
        (placed.token.kind ≠ .angle → placed.IsComparison source.toList)) ∧
      ∀ placed ∈ placedTokens source file line, placed.token.kind = .angle →
        source.toList[placed.offset]? = some '<' ∧ '\n' ∉ placed.token.value.toList ∧
          '&' ∉ placed.token.value.toList ∧
          GenericArguments.IsBalanced placed.token.value.toList := by
  refine ⟨token_placedTokens source file line, Tile.pairwise_place 0 _, fun placed hMem => ?_,
    fun placed hMem hChar => angle_iff_of_mem_placedTokens hMem hChar,
    fun placed hMem hKind => ?_⟩
  · obtain ⟨afterWord, hStands, -⟩ := standsIn_of_mem_placedTokens hMem
    exact ⟨hStands.hText, hStands.hPosition⟩
  obtain ⟨hChar, hParts, hBalanced, -, -⟩ := isArguments_of_angle hMem hKind
  have hNone (c : Char) (hOther : GenericArguments.isPart c = false) :
      c ∉ placed.token.value.toList := by
    intro hInside
    rw [hParts c hInside] at hOther
    cases hOther
  exact ⟨hChar, hNone '\n' (by decide), hNone '&' (by decide), hBalanced⟩

theorem angle_iff_closesAt_nested :
    ∃ word arguments comparison more,
      placedTokens "a<b<c>> <d" "" 1 = word :: arguments :: comparison :: more ∧
        (WordEndsAt (placedTokens "a<b<c>> <d" "" 1) arguments.offset ∧
          ∃ stop, GenericArguments.ClosesAt "a<b<c>> <d".toList arguments.offset stop ∧
            arguments.HoldsArguments "a<b<c>> <d".toList stop) ∧
        GenericArguments.IsBalanced arguments.token.value.toList ∧
        comparison.IsComparison "a<b<c>> <d".toList := by
  have hTokens : placedTokens "a<b<c>> <d" "" 1 =
      [⟨⟨[], ['a'], ⟨.identifier, "a", 1, 1⟩⟩, 0⟩,
       ⟨⟨[], "<b<c>>".toList, ⟨.angle, "b<c>", 1, 2⟩⟩, 1⟩,
       ⟨⟨[' '], ['<'], ⟨.symbol, "<", 1, 9⟩⟩, 8⟩,
       ⟨⟨[], ['d'], ⟨.identifier, "d", 1, 10⟩⟩, 9⟩] := by
    decide +kernel
  obtain ⟨-, -, -, hAngle, hArguments⟩ := angle_iff_closesAt "a<b<c>> <d" "" 1
  have hNested : (⟨⟨[], "<b<c>>".toList, ⟨.angle, "b<c>", 1, 2⟩⟩, 1⟩ : PlacedTile) ∈
      placedTokens "a<b<c>> <d" "" 1 := by
    rw [hTokens]
    simp
  have hLone : (⟨⟨[' '], ['<'], ⟨.symbol, "<", 1, 9⟩⟩, 8⟩ : PlacedTile) ∈
      placedTokens "a<b<c>> <d" "" 1 := by
    rw [hTokens]
    simp
  obtain ⟨hKind, hHolds, -⟩ := hAngle _ hNested (by decide)
  obtain ⟨hWord, stop, hCloses⟩ := hKind.mp rfl
  exact ⟨_, _, _, _, hTokens, ⟨hWord, stop, hCloses, hHolds rfl stop hCloses⟩,
    (hArguments _ hNested rfl).2.2.2, (hAngle _ hLone (by decide)).2.2 (by decide)⟩

end FlatSyntax
