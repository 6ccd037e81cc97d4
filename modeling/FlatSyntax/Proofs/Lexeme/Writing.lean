import FlatSyntax.Proofs.Lexeme.Literal
import Mathlib.Data.List.Forall2

/-! Texts written between quotes. Each character is written on its own, as itself or as an escape,
and reading takes the pieces apart where they were put together: so every text has literals, and all
of them stand for it. -/
namespace FlatSyntax.Literal

/-- What may be written for a character between quotes: the character itself, where it neither
closes the literal nor cuts it off nor starts an escape, or an escape that stands for it. -/
inductive Writes (quote : Char) : Char → List Char → Prop where
  | itself {c : Char} (hQuote : c ≠ quote) (hLine : c ≠ '\n') (hEscape : c ≠ '\\') :
      Writes quote c [c]
  | escape {sign c : Char} (hSign : (sign, c) ∈ escapes) : Writes quote c ['\\', sign]

/-- Every character may be written: one that has no escape is no quote, so it may stand for
itself. -/
theorem exists_writes {quote : Char} (hQuote : isQuote quote = true) (c : Char) :
    ∃ piece, Writes quote c piece := by
  by_cases hEscaped : ∃ sign, (sign, c) ∈ escapes
  · obtain ⟨sign, hSign⟩ := hEscaped
    exact ⟨['\\', sign], .escape hSign⟩
  · have hOther : ∀ sign special, (sign, special) ∈ escapes → c ≠ special := by
      rintro sign _ hSign rfl
      exact hEscaped ⟨sign, hSign⟩
    have hClose : c ≠ quote := by
      simp only [isQuote, Bool.or_eq_true, beq_iff_eq] at hQuote
      rcases hQuote with rfl | rfl
      · exact hOther '"' '"' (by decide)
      · exact hOther '\'' '\'' (by decide)
    exact ⟨[c], .itself hClose (hOther 'n' '\n' (by decide)) (hOther '\\' '\\' (by decide))⟩

theorem exists_pieces {quote : Char} (hQuote : isQuote quote = true) (text : List Char) :
    ∃ pieces, List.Forall₂ (Writes quote) text pieces := by
  induction text with
  | nil => exact ⟨[], .nil⟩
  | cons c rest ih =>
      obtain ⟨piece, hPiece⟩ := exists_writes hQuote c
      obtain ⟨pieces, hPieces⟩ := ih
      exact ⟨piece :: pieces, .cons hPiece hPieces⟩

/-- However the characters of a text are written, the pieces together are an inside that stands for
the text. No piece ends in a backslash that could take the first character of the next one. -/
theorem inside_of_pieces {quote : Char} {text : List Char} {pieces : List (List Char)}
    (hPieces : List.Forall₂ (Writes quote) text pieces) :
    Inside quote pieces.flatten ∧ resolve pieces.flatten = text := by
  induction hPieces with
  | nil => exact ⟨.nil, rfl⟩
  | @cons c piece rest more hPiece _ ih =>
      obtain ⟨hInside, hResolve⟩ := ih
      rw [List.flatten_cons]
      cases hPiece with
      | itself hQuote hLine hEscape =>
          refine ⟨.plain hQuote hLine hEscape hInside, ?_⟩
          rw [List.singleton_append, resolve_cons hEscape, hResolve]
      | @escape sign _ hSign =>
          refine ⟨.escaped hInside, ?_⟩
          calc resolve ('\\' :: sign :: more.flatten)
            _ = unescape sign ++ resolve more.flatten := rfl
            _ = c :: rest := by
                rw [unescape_of_mem_escapes hSign, hResolve, List.singleton_append]

end FlatSyntax.Literal
