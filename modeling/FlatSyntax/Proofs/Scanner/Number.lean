import FlatSyntax.Proofs.Parser.Anchoring
import FlatSyntax.Proofs.Parser.OpaqueText
import FlatSyntax.Proofs.Scanner.GenericArguments
import FlatSyntax.Proofs.Text.Decimal

/-! Numbers and decimal numerals. A number is made of digits of any sort, so it is a decimal numeral
exactly where all its digits are decimal. No other token shows a digit that is not decimal, but for
those that hold a text of the author. -/
namespace FlatSyntax

namespace Number

/-- One decimal digit or more, and nothing else. -/
def IsDecimals (text : List Char) : Prop :=
  text ≠ [] ∧ ∀ c ∈ text, Text.isDecimal c = true

/-- Decimal digits, or decimal digits on both sides of a point. -/
def IsDecimalNumeral (text : List Char) : Prop :=
  IsDecimals text ∨
    ∃ whole fraction, text = whole ++ '.' :: fraction ∧ IsDecimals whole ∧ IsDecimals fraction

variable {text : List Char} {c : Char}

theorem isDecimals_iff :
    IsDecimals text ↔ IsDigits text ∧ ∀ c ∈ text, ¬ Text.IsNonDecimalDigit c := by
  constructor
  · rintro ⟨hText, hDecimal⟩
    refine ⟨⟨hText, fun c hMem => Text.isDigit_of_isDecimal (hDecimal c hMem)⟩, ?_⟩
    rintro c hMem ⟨-, hOther⟩
    rw [hDecimal c hMem] at hOther
    cases hOther
  · rintro ⟨⟨hText, hDigit⟩, hNone⟩
    refine ⟨hText, fun c hMem => ?_⟩
    cases hDecimal : Text.isDecimal c with
    | true => rfl
    | false => exact absurd ⟨hDigit c hMem, hDecimal⟩ (hNone c hMem)

/-- A numeral is decimal just if none of its digits is not. -/
theorem isDecimalNumeral_iff :
    IsDecimalNumeral text ↔ IsNumeral text ∧ ∀ c ∈ text, ¬ Text.IsNonDecimalDigit c := by
  have hPoint : ¬ Text.IsNonDecimalDigit '.' := Text.not_isNonDecimalDigit_of_ascii (by decide)
  constructor
  · rintro (hDecimals | ⟨whole, fraction, rfl, hWhole, hFraction⟩)
    · obtain ⟨hDigits, hNone⟩ := isDecimals_iff.mp hDecimals
      exact ⟨Or.inl hDigits, hNone⟩
    · obtain ⟨hWhole, hNoneBefore⟩ := isDecimals_iff.mp hWhole
      obtain ⟨hFraction, hNoneBehind⟩ := isDecimals_iff.mp hFraction
      refine ⟨Or.inr ⟨whole, fraction, rfl, hWhole, hFraction⟩, fun c hMem => ?_⟩
      rcases List.mem_append.mp hMem with hMem | hMem
      · exact hNoneBefore c hMem
      · rcases List.mem_cons.mp hMem with rfl | hMem
        · exact hPoint
        · exact hNoneBehind c hMem
  · rintro ⟨hDigits | ⟨whole, fraction, rfl, hWhole, hFraction⟩, hNone⟩
    · exact Or.inl (isDecimals_iff.mpr ⟨hDigits, hNone⟩)
    · obtain ⟨hNoneBefore, hNoneBehind⟩ := List.forall_mem_append.mp hNone
      refine Or.inr ⟨whole, fraction, rfl, isDecimals_iff.mpr ⟨hWhole, hNoneBefore⟩, ?_⟩
      exact isDecimals_iff.mpr ⟨hFraction, (List.forall_mem_cons.mp hNoneBehind).2⟩

end Number

variable {source file : String} {line : Int} {placed : PlacedTile}

theorem isNumeral_of_number (hMem : placed ∈ placedTokens source file line)
    (hKind : placed.token.kind = .number) :
    placed.raw = placed.token.value.toList ∧ Number.IsNumeral placed.token.value.toList := by
  obtain ⟨afterWord, hStands, -⟩ := standsIn_of_mem_placedTokens hMem
  have hSpells := hStands.hRead.wellSpelled.1
  rw [hKind] at hSpells
  exact ⟨hSpells.1, hSpells.1 ▸ hSpells.2⟩

/-- A digit that is not decimal stands in a number or in a text of the author. -/
theorem kind_of_nonDecimalDigit_mem (hMem : placed ∈ placedTokens source file line) {c : Char}
    (hChar : c ∈ placed.raw) (hDigit : Text.IsNonDecimalDigit c) :
    placed.token.kind = .number ∨ placed.token.kind = .directive ∨
      placed.token.kind.isOpaque = true := by
  have hAscii : ¬ c.toNat < 128 := fun hLt => Text.not_isNonDecimalDigit_of_ascii hLt hDigit
  have hPart : ¬ GenericArguments.isPart c = true := fun hPart =>
    hAscii (GenericArguments.toNat_lt_of_isPart hPart)
  obtain ⟨afterWord, hStands, -⟩ := standsIn_of_mem_placedTokens hMem
  have hSpells := hStands.hRead.wellSpelled.1
  cases hKind : placed.token.kind with
  | number => exact Or.inl rfl
  | directive => exact Or.inr (Or.inl rfl)
  | curly | round | square | comment | string => exact Or.inr (Or.inr rfl)
  | identifier | keyword | headKeyword | bodyKeyword =>
      rw [hKind] at hSpells
      have hWord := Word.isPart_of_mem hSpells.2.1 hChar
      exact absurd (GenericArguments.isPart_of_word hWord) hPart
  | staticMarker =>
      rw [hKind] at hSpells
      rw [hSpells.2, List.mem_singleton] at hChar
      exact absurd (by rw [hChar]; decide) hAscii
  | symbol =>
      rw [hKind] at hSpells
      rcases hSpells.2 with ⟨d, e, hRaw, hPair⟩ | ⟨d, hRaw, hSingle⟩
      · have hPairs : ∀ pair ∈ Operator.pairs, pair.1.toNat < 128 ∧ pair.2.toNat < 128 := by
          decide
        obtain ⟨hFirst, hSecond⟩ := hPairs (d, e) hPair
        rw [hRaw] at hChar
        rcases List.mem_pair.mp hChar with rfl | rfl
        · exact absurd hFirst hAscii
        · exact absurd hSecond hAscii
      · rw [hRaw, List.mem_singleton] at hChar
        have hOther := hSingle.2.2.1
        rw [← hChar, hDigit.1] at hOther
        cases hOther
  | angle =>
      obtain ⟨-, hArguments⟩ := isArguments_of_angle hMem hKind
      rw [hKind] at hSpells
      rw [hSpells, List.mem_append, List.mem_cons, List.mem_singleton] at hChar
      rcases hChar with (hOpening | hInner) | hClosing
      · exact absurd (by rw [hOpening]; decide) hAscii
      · exact absurd (hArguments.hParts c hInner) hPart
      · exact absurd (by rw [hClosing]; decide) hAscii

/-- Numbers are numerals of digits, and decimal where their digits are. The numbers of a source text
are all decimal exactly where every digit that is not decimal stands inside a group, a comment, a
literal or a directive. -/
theorem numbers_are_decimal_iff (source file : String) (line : Int) :
    (∀ token ∈ (scanSource source file line).tokens, token.kind = .number →
        Number.IsNumeral token.value.toList ∧
          (Number.IsDecimalNumeral token.value.toList ↔
            ∀ c ∈ token.value.toList, ¬ Text.IsNonDecimalDigit c)) ∧
      ((∀ token ∈ (scanSource source file line).tokens, token.kind = .number →
          Number.IsDecimalNumeral token.value.toList) ↔
        ∀ placed ∈ placedTokens source file line, (∃ c ∈ placed.raw, Text.IsNonDecimalDigit c) →
          placed.token.kind = .directive ∨ placed.token.kind.isOpaque = true) := by
  rw [← token_placedTokens]
  simp only [List.forall_mem_map]
  refine ⟨fun placed hMem hKind => ?_, ?_, ?_⟩
  · obtain ⟨-, hNumeral⟩ := isNumeral_of_number hMem hKind
    exact ⟨hNumeral, Number.isDecimalNumeral_iff.trans (and_iff_right hNumeral)⟩
  · rintro hAll placed hMem ⟨c, hChar, hDigit⟩
    refine (kind_of_nonDecimalDigit_mem hMem hChar hDigit).resolve_left fun hKind => ?_
    obtain ⟨hRaw, -⟩ := isNumeral_of_number hMem hKind
    obtain ⟨-, hNone⟩ := Number.isDecimalNumeral_iff.mp (hAll placed hMem hKind)
    rw [hRaw] at hChar
    exact hNone c hChar hDigit
  · intro hInside placed hMem hKind
    obtain ⟨hRaw, hNumeral⟩ := isNumeral_of_number hMem hKind
    refine Number.isDecimalNumeral_iff.mpr ⟨hNumeral, fun c hChar hDigit => ?_⟩
    rw [← hRaw] at hChar
    have hText := hInside placed hMem ⟨c, hChar, hDigit⟩
    rw [hKind] at hText
    exact absurd hText (by decide)

/-- A superscript counts behind a digit, and does not in a comment. -/
theorem numbers_are_decimal_iff_superscript :
    let token : Token := { kind := .number, value := "2²", line := 1, column := 1 }
    token ∈ (scanSource "2²" "" 1).tokens ∧ token.kind = .number ∧
      Number.IsNumeral token.value.toList ∧ ¬ Number.IsDecimalNumeral token.value.toList ∧
      ∀ other ∈ (scanSource "2.5 // m²" "" 1).tokens, other.kind = .number →
        Number.IsDecimalNumeral other.value.toList := by
  have hTokens : (scanSource "2²" "" 1).tokens =
      [{ kind := .number, value := "2²", line := 1, column := 1 }] := by decide +kernel
  obtain ⟨hNumbers, -⟩ := numbers_are_decimal_iff "2²" "" 1
  obtain ⟨-, hSource⟩ := numbers_are_decimal_iff "2.5 // m²" "" 1
  obtain ⟨hNumeral, hDecimal⟩ := hNumbers _ (hTokens ▸ List.mem_singleton_self _) rfl
  have hComment : (placedTokens "2.5 // m²" "" 1).all (fun placed =>
      placed.token.kind.isOpaque || !placed.raw.any (Text.IsNonDecimalDigit ·)) = true := by
    decide +kernel
  refine ⟨hTokens ▸ List.mem_singleton_self _, rfl, hNumeral, mt hDecimal.mp ?_, hSource.mpr ?_⟩
  · intro hNone
    exact hNone '²' (by decide) (by decide +kernel)
  · rintro placed hMem ⟨c, hChar, hDigit⟩
    have hPlaced := List.all_eq_true.mp hComment placed hMem
    have hAny : placed.raw.any (Text.IsNonDecimalDigit ·) = true :=
      List.any_eq_true.mpr ⟨c, hChar, decide_eq_true hDigit⟩
    rw [hAny, Bool.not_true, Bool.or_false] at hPlaced
    exact Or.inr hPlaced

/-- A superscript by itself is a number. -/
theorem superscript_is_number :
    ¬ ∀ source file line, ∀ token ∈ (scanSource source file line).tokens, token.kind = .number →
      Number.IsDecimalNumeral token.value.toList := by
  intro hAll
  have hTokens : (scanSource "²" "" 1).tokens =
      [{ kind := .number, value := "²", line := 1, column := 1 }] := by decide +kernel
  have hDecimal := hAll "²" "" 1
  rw [hTokens, List.forall_mem_singleton] at hDecimal
  have hMem : '²' ∈ "²".toList := by decide
  exact (Number.isDecimalNumeral_iff.mp (hDecimal rfl)).2 '²' hMem (by decide +kernel)

end FlatSyntax
