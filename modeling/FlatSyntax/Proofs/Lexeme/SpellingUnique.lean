import FlatSyntax.Proofs.Lexeme.Spelling

/-! A spelling tells its token. Only the dollar sign by itself is a spelling of two kinds, of the
marker and of a symbol; what follows it decides there. -/
namespace FlatSyntax

theorem Word.kind_of_mem {word : List Char} {tag : TokenKind}
    (hMem : (String.ofList word, tag) ∈ Word.reserved) : Word.kind word = tag := by
  have hTable : ∀ entry ∈ Word.reserved, Word.reserved.lookup entry.1 = some entry.2 := by decide
  rw [Word.kind, hTable _ hMem]
  rfl

theorem Word.kind_of_notMem {word : List Char}
    (hFree : ∀ tag, (String.ofList word, tag) ∉ Word.reserved) :
    Word.kind word = .identifier := by
  rcases Word.kind_cases word with ⟨hKind, -⟩ | ⟨-, hMem⟩
  · exact hKind
  · exact (hFree _ hMem).elim

theorem Word.isStart_bounds {c : Char} (hStart : Word.isStart c = true) :
    0x41 ≤ c.toNat ∧ c.toNat ≤ 0x7A := by
  have hEither : (c.isUpper || c.isLower || c == '_') = true := hStart
  simp only [Bool.or_eq_true, beq_iff_eq] at hEither
  rcases hEither with (hUpper | hLower) | rfl
  · obtain ⟨hFirst, hLast⟩ : 'A'.val ≤ c.val ∧ c.val ≤ 'Z'.val := of_decide_eq_true hUpper
    rw [UInt32.le_iff_toNat_le] at hFirst hLast
    exact ⟨hFirst, Nat.le_trans hLast (by decide)⟩
  · have hBoth : (decide ('a'.val ≤ c.val) && decide (c.val ≤ 'z'.val)) = true := hLower
    simp only [Bool.and_eq_true, decide_eq_true_eq, UInt32.le_iff_toNat_le] at hBoth
    exact ⟨Nat.le_trans (by decide) hBoth.1, hBoth.2⟩
  · decide

/-- No digit of any writing system starts a word. -/
theorem Text.isDigit_of_isStart {c : Char} (hStart : Word.isStart c = true) :
    Text.isDigit c = false := by
  have hBounds := Word.isStart_bounds hStart
  unfold Text.isDigit Text.digitRanges
  rw [CodeRanges.covers, if_neg (by omega), CodeRanges.covers, if_pos (by omega)]
  simp only [decide_eq_false_iff_not]
  omega

namespace TokenKind

/-- The kind that a spelling shows. The dollar sign by itself shows a symbol. -/
def ofRaw : List Char → TokenKind
  | [] => .symbol
  | first :: more =>
      if Word.isStart first then Word.kind (first :: more)
      else if Text.isDigit first then .number
      else if Literal.isQuote first then .string
      else if first = '(' then .round
      else if first = '\x7b' then .curly
      else if first = '[' then .square
      else if first = '/' ∧ more ≠ [] then .comment
      else if first = '#' ∧ more ≠ [] then .directive
      else if first = '<' ∧ more.getLast? = some '>' then .angle
      else .symbol

theorem ofRaw_word {word : List Char} (hWord : Word.IsWord word) : ofRaw word = Word.kind word := by
  obtain ⟨first, more, rfl, hStart, -⟩ := hWord
  simp [ofRaw, hStart]

theorem ofRaw_numeral {text : List Char} (hNumeral : Number.IsNumeral text) :
    ofRaw text = .number := by
  have hDigits (digits rest : List Char) (hDigits : Number.IsDigits digits) :
      ofRaw (digits ++ rest) = .number := by
    obtain ⟨first, more, rfl⟩ := List.exists_cons_of_ne_nil hDigits.1
    have hFirst := hDigits.2 first List.mem_cons_self
    have hStart : Word.isStart first = false := by
      cases hStart : Word.isStart first with
      | false => rfl
      | true => rw [Text.isDigit_of_isStart hStart] at hFirst; cases hFirst
    simp [ofRaw, hStart, hFirst]
  rcases hNumeral with hWhole | ⟨whole, fraction, rfl, hWhole, -⟩
  · rw [← List.append_nil text]
    exact hDigits _ _ hWhole
  · exact hDigits _ _ hWhole

theorem ofRaw_single {c : Char} (hSingle : Operator.IsSingle c) : ofRaw [c] = .symbol := by
  obtain ⟨-, hStart, hDigit, hQuote, hOpener, -⟩ := hSingle
  have hBracket (bracket : Bracket) : c ≠ bracket.opener := by
    intro hEq
    rw [Bracket.ofOpener?_eq_some.mpr hEq] at hOpener
    cases hOpener
  have hRound : c ≠ '(' := hBracket .round
  have hCurly : c ≠ '\x7b' := hBracket .curly
  have hSquare : c ≠ '[' := hBracket .square
  simp [ofRaw, hStart, hDigit, hQuote, hRound, hCurly, hSquare]

/-- A spelling shows the kind that it is a spelling of, unless it is the dollar sign. -/
theorem eq_ofRaw_of_spells {kind : TokenKind} {value raw : List Char}
    (hSpells : kind.Spells value raw) : kind = ofRaw raw ∨ raw = ['$'] := by
  cases kind with
  | identifier =>
      obtain ⟨-, hWord, hFree⟩ := hSpells
      rw [ofRaw_word hWord, Word.kind_of_notMem hFree]
      exact Or.inl rfl
  | keyword | headKeyword | bodyKeyword =>
      obtain ⟨-, hWord, hMem⟩ := hSpells
      rw [ofRaw_word hWord, Word.kind_of_mem hMem]
      exact Or.inl rfl
  | number => exact Or.inl (ofRaw_numeral hSpells.2).symm
  | staticMarker => exact Or.inr hSpells.2
  | symbol =>
      obtain ⟨-, ⟨c, d, rfl, hPair⟩ | ⟨c, rfl, hSingle⟩⟩ := hSpells
      · have hPairs : ∀ pair ∈ Operator.pairs, symbol = ofRaw [pair.1, pair.2] := by decide
        exact Or.inl (hPairs _ hPair)
      · exact Or.inl (ofRaw_single hSingle).symm
  | round | curly | square =>
      rw [hSpells]
      exact Or.inl rfl
  | angle =>
      rw [hSpells]
      refine Or.inl ?_
      simp [ofRaw, show Word.isStart '<' = false by decide, show Text.isDigit '<' = false by decide,
        show Literal.isQuote '<' = false by decide]
  | directive =>
      obtain ⟨-, ⟨more, rfl⟩, -⟩ := hSpells
      exact Or.inl rfl
  | comment =>
      obtain ⟨inner, -, ⟨rfl, -⟩ | ⟨rfl, -⟩⟩ := hSpells <;> exact Or.inl rfl
  | string =>
      obtain ⟨quote, body, rfl, hQuote, -⟩ := hSpells
      have hEither : quote = '"' ∨ quote = '\'' := by simpa [Literal.isQuote] using hQuote
      rcases hEither with rfl | rfl <;> exact Or.inl rfl

/-- Spellings of one kind have one value. -/
theorem value_unique {kind : TokenKind} {value value' raw : List Char}
    (hSpells : kind.Spells value raw) (hSpells' : kind.Spells value' raw) : value = value' := by
  cases kind with
  | identifier | keyword | headKeyword | bodyKeyword | number | staticMarker | symbol =>
      exact hSpells.1.symm.trans hSpells'.1
  | round | curly | square | angle =>
      have hSame := (List.cons.inj (hSpells.symm.trans hSpells')).2
      exact List.append_cancel_right hSame
  | directive => exact hSpells.2.2.trans hSpells'.2.2.symm
  | comment =>
      obtain ⟨inner, rfl, hRaw⟩ := hSpells
      obtain ⟨inner', rfl, hRaw'⟩ := hSpells'
      rcases hRaw with ⟨rfl, -⟩ | ⟨rfl, -⟩ <;> rcases hRaw' with ⟨hSame, -⟩ | ⟨hSame, -⟩ <;>
        simp_all
  | string =>
      obtain ⟨quote, body, rfl, -, -, hStands⟩ := hSpells
      obtain ⟨quote', body', hSame, -, -, hStands'⟩ := hSpells'
      simp only [List.cons_append, List.cons.injEq] at hSame
      obtain ⟨rfl, hBody⟩ := hSame
      rw [hStands.eq_resolve, hStands'.eq_resolve, List.append_cancel_right hBody]

theorem value_of_dollar {kind : TokenKind} {value : List Char}
    (hSpells : kind.Spells value ['$']) : value = ['$'] := by
  cases kind with
  | identifier | keyword | headKeyword | bodyKeyword | number | staticMarker | symbol =>
      exact hSpells.1.symm
  | round | curly | square | angle => cases hSpells
  | directive =>
      have hMarker := hSpells.2.1
      rw [Directive.marker_eq, List.cons_prefix_cons] at hMarker
      exact absurd hMarker.1 (by decide)
  | comment => obtain ⟨_, -, ⟨hRaw, -⟩ | ⟨hRaw, -⟩⟩ := hSpells <;> cases hRaw
  | string =>
      obtain ⟨quote, body, hRaw, -⟩ := hSpells
      simp at hRaw

/-- One spelling, one token: the kind and the value are told by the characters, except that the
dollar sign by itself may be a marker or a symbol. -/
theorem spells_unique {kind kind' : TokenKind} {value value' raw : List Char}
    (hSpells : kind.Spells value raw) (hSpells' : kind'.Spells value' raw) :
    value = value' ∧ (kind = kind' ∨ raw = ['$']) := by
  rcases eq_ofRaw_of_spells hSpells with hKind | rfl
  · rcases eq_ofRaw_of_spells hSpells' with hKind' | rfl
    · obtain rfl : kind = kind' := hKind.trans hKind'.symm
      exact ⟨value_unique hSpells hSpells', Or.inl rfl⟩
    · exact ⟨(value_of_dollar hSpells).trans (value_of_dollar hSpells').symm, Or.inr rfl⟩
  · exact ⟨(value_of_dollar hSpells).trans (value_of_dollar hSpells').symm, Or.inr rfl⟩

end TokenKind

end FlatSyntax
