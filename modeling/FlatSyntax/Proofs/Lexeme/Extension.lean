import FlatSyntax.Lexeme.Read
import FlatSyntax.Proofs.Lexeme.Group

/-! Reading before a line feed. A lexeme that is read up to some place is read in the same way where
a line feed and any further text are put after the text: whatever a reader looks ahead for, it stops
at a line feed as it does at the end of the text, unless it is inside something still open. -/
namespace FlatSyntax

/-- If the first reading yields a lexeme, the second one yields the same, with the text `beyond` at
the end of what follows. -/
def Reading.Extends (beyond : List Char) (reading extended : Reading) : Prop :=
  ∀ lexeme after, reading = .lexeme lexeme after → extended = .lexeme lexeme (after ++ beyond)

theorem Reading.extends_lexeme (lexeme : Lexeme) (after beyond : List Char) :
    Extends beyond (.lexeme lexeme after) (.lexeme lexeme (after ++ beyond)) := by
  rintro _ _ ⟨⟩
  rfl

theorem Reading.extends_fault {beyond : List Char} (problem : Problem)
    (skipped covered rest : List Char) (extended : Reading) :
    Extends beyond (.fault problem skipped covered rest) extended := by
  rintro _ _ ⟨⟩

namespace Text

/-- A run of characters ends before a character that does not belong to it. -/
theorem takeWhile_append_cons {p : Char → Bool} {c : Char} (hEnd : p c = false)
    (text more : List Char) : (text ++ c :: more).takeWhile p = text.takeWhile p := by
  induction text with
  | nil => simp [hEnd]
  | cons d text ih => by_cases hRun : p d <;> simp [hRun, ih]

theorem dropWhile_append_cons {p : Char → Bool} {c : Char} (hEnd : p c = false)
    (text more : List Char) : (text ++ c :: more).dropWhile p = text.dropWhile p ++ c :: more := by
  induction text with
  | nil => simp [hEnd]
  | cons d text ih => by_cases hRun : p d <;> simp [hRun, ih]

theorem sourceLine_append_lineFeed (text more : List Char) :
    sourceLine (text ++ '\n' :: more) = sourceLine text :=
  takeWhile_append_cons (by decide) text more

theorem afterSourceLine_append_lineFeed (text more : List Char) :
    afterSourceLine (text ++ '\n' :: more) = afterSourceLine text ++ '\n' :: more :=
  dropWhile_append_cons (by decide) text more

theorem head?_append_lineFeed {c : Char} (hOther : c ≠ '\n') (text more : List Char) :
    (text ++ '\n' :: more).head? = some c ↔ text.head? = some c := by
  cases text with
  | nil => simp [Ne.symm hOther]
  | cons d text => rfl

theorem isPrefixOf_append_lineFeed {front : List Char} (hFront : '\n' ∉ front)
    (text more : List Char) : front.isPrefixOf (text ++ '\n' :: more) = front.isPrefixOf text := by
  induction front generalizing text with
  | nil => simp
  | cons c front ih =>
      rw [List.mem_cons, not_or] at hFront
      cases text with
      | nil => simp [List.isPrefixOf, Ne.symm hFront.1]
      | cons d text => simp only [List.cons_append, List.isPrefixOf, ih hFront.2]

theorem isDigit_lineFeed : isDigit '\n' = false := by decide +kernel

end Text

variable (more : List Char)

theorem Comment.splitBlock_extends {text inner after : List Char}
    (hSplit : splitBlock text = some (inner, after)) (beyond : List Char) :
    splitBlock (text ++ beyond) = some (inner, after ++ beyond) := by
  have hText : text ++ beyond = inner ++ '*' :: '/' :: (after ++ beyond) := by
    rw [eq_append_of_splitBlock hSplit]
    simp
  rw [hText, splitBlock_append (not_closing_infix_of_splitBlock hSplit)]

theorem Comment.readLine_extends (text : List Char) :
    Reading.Extends ('\n' :: more) (readLine text) (readLine (text ++ '\n' :: more)) := by
  unfold readLine
  rw [Text.sourceLine_append_lineFeed, Text.afterSourceLine_append_lineFeed]
  exact Reading.extends_lexeme _ _ _

theorem Comment.readBlock_extends (text beyond : List Char) :
    Reading.Extends beyond (readBlock text) (readBlock (text ++ beyond)) := by
  cases hSplit : splitBlock text with
  | none =>
      rw [readBlock, hSplit]
      exact Reading.extends_fault _ _ _ _ _
  | some parts =>
      rw [readBlock, readBlock, hSplit, splitBlock_extends hSplit]
      exact Reading.extends_lexeme _ _ _

theorem Directive.read_extends (first : Char) (rest : List Char) :
    Reading.Extends ('\n' :: more) (read first rest) (read first (rest ++ '\n' :: more)) := by
  unfold read
  rw [Text.sourceLine_append_lineFeed, Text.afterSourceLine_append_lineFeed]
  exact Reading.extends_lexeme _ _ _

theorem Word.read_extends (first : Char) (rest : List Char) :
    Reading.Extends ('\n' :: more) (read first rest) (read first (rest ++ '\n' :: more)) := by
  have hEnd : isPart '\n' = false := by decide
  unfold read
  rw [Text.takeWhile_append_cons hEnd, Text.dropWhile_append_cons hEnd]
  exact Reading.extends_lexeme _ _ _

/-- A point before a line feed starts no fraction. -/
theorem Number.splitFraction_append_lineFeed (text : List Char) :
    splitFraction (text ++ '\n' :: more) =
      ((splitFraction text).1, (splitFraction text).2 ++ '\n' :: more) := by
  cases text with
  | nil => simp [splitFraction]
  | cons c rest =>
      by_cases hPoint : c = '.'
      · subst hPoint
        cases rest with
        | nil => simp [splitFraction, Text.isDigit_lineFeed]
        | cons d rest =>
            simp only [List.cons_append, splitFraction,
              Text.takeWhile_append_cons Text.isDigit_lineFeed,
              Text.dropWhile_append_cons Text.isDigit_lineFeed]
            split <;> rfl
      · simp [splitFraction, hPoint]

theorem Number.read_extends (first : Char) (rest : List Char) :
    Reading.Extends ('\n' :: more) (read first rest) (read first (rest ++ '\n' :: more)) := by
  unfold read
  rw [Text.takeWhile_append_cons Text.isDigit_lineFeed,
    Text.dropWhile_append_cons Text.isDigit_lineFeed, splitFraction_append_lineFeed]
  exact Reading.extends_lexeme _ _ _

/-- A literal that is closed has nothing to do with the text after it. -/
theorem Literal.read_extends {quote : Char} (hQuote : isQuote quote = true)
    (text beyond : List Char) :
    Reading.Extends beyond (read quote text) (read quote (text ++ beyond)) := by
  cases hClosed : (readBody quote text).closed with
  | false =>
      rw [read, Body.reading, hClosed]
      exact Reading.extends_fault _ _ _ _ _
  | true =>
      obtain ⟨hInside, hValue⟩ := inside_of_closed hQuote hClosed
      have hText := source_readBody quote text
      rw [Body.source, hClosed, if_pos rfl] at hText
      have hBeyond := readBody_closed hInside (ne_of_isQuote hQuote).1
        ((readBody quote text).rest ++ beyond)
      rw [← List.cons_append, ← List.append_assoc, hText, ← hValue] at hBeyond
      rw [read, read, Body.reading, Body.reading, hClosed, hBeyond]
      exact Reading.extends_lexeme _ _ _

/-- A group that is closed has nothing to do with the text after it. -/
theorem Group.read_extends (bracket : Bracket) (text beyond : List Char) :
    Reading.Extends beyond (read bracket text) (read bracket (text ++ beyond)) := by
  cases hBody : readBody bracket [] text with
  | mk inner ending =>
      cases ending with
      | closed rest =>
          obtain ⟨hInner, rfl⟩ := readBody_eq_closed_iff.mp hBody
          have hBeyond : readBody bracket [] (inner ++ bracket.closer :: rest ++ beyond) =
              ⟨inner, .closed (rest ++ beyond)⟩ :=
            readBody_eq_closed_iff.mpr ⟨hInner, by simp⟩
          rw [read, read, hBody, hBeyond]
          exact Reading.extends_lexeme _ _ _
      | unbalanced | unterminatedComment | unterminated =>
          rw [read, hBody]
          exact Reading.extends_fault _ _ _ _ _

/-- No list of type names goes on over a line feed. -/
theorem GenericArguments.splitClosing_append_lineFeed (depth : Nat) (text : List Char) :
    splitClosing depth (text ++ '\n' :: more) =
      (splitClosing depth text).map fun (inner, after) => (inner, after ++ '\n' :: more) := by
  have hFeed : isPart '\n' = false := by decide
  fun_induction splitClosing depth text with
  | case1 => simp [splitClosing, hFeed]
  | _ => simp_all [splitClosing, Function.comp_def]

theorem GenericArguments.read?_extends {instead beyond : Reading}
    (hInstead : Reading.Extends ('\n' :: more) instead beyond) (text : List Char) :
    Reading.Extends ('\n' :: more) ((read? text).getD instead)
      ((read? (text ++ '\n' :: more)).getD beyond) := by
  unfold read?
  rw [splitClosing_append_lineFeed]
  cases splitClosing 0 text with
  | none => exact hInstead
  | some parts =>
      simp only [Option.map_some]
      split
      · exact Reading.extends_lexeme _ _ _
      · exact hInstead

/-- No operator ends in a line feed. -/
theorem Operator.read_extends (first : Char) (rest : List Char) :
    Reading.Extends ('\n' :: more) (read first rest) (read first (rest ++ '\n' :: more)) := by
  have hSingle : Reading.Extends ('\n' :: more) (read.single first rest)
      (read.single first (rest ++ '\n' :: more)) := by
    unfold read.single
    split
    · exact Reading.extends_lexeme _ _ _
    · exact Reading.extends_fault _ _ _ _ _
  cases rest with
  | nil =>
      have hPairs : ∀ pair ∈ pairs, pair.2 ≠ '\n' := by decide
      have hNone : ¬ pairs.contains (first, '\n') = true := fun hPair =>
        hPairs _ (List.contains_iff_mem.mp hPair) rfl
      rw [List.nil_append, read, read, if_neg hNone]
      exact hSingle
  | cons second after =>
      rw [List.cons_append, read, read]
      split
      · exact Reading.extends_lexeme _ _ _
      · exact hSingle

/-- Where a character other than a line feed is read, the text after it may go on after a line
feed. -/
theorem Reading.ofText_extends (afterWord : Bool) (first : Char) (rest : List Char) :
    Extends ('\n' :: more) (ofText afterWord first rest)
      (ofText afterWord first (rest ++ '\n' :: more)) := by
  have hHead : ∀ c ∈ ['/', '*', '['],
      ((rest ++ '\n' :: more).head? = some c ↔ rest.head? = some c) := by
    intro c hMem
    refine Text.head?_append_lineFeed ?_ rest more
    rintro rfl
    exact absurd hMem (by decide)
  have hTail {c : Char} (hStarts : rest.head? = some c) :
      (rest ++ '\n' :: more).tail = rest.tail ++ '\n' :: more :=
    List.tail_append_of_ne_nil (List.ne_nil_of_mem (List.mem_of_mem_head? hStarts))
  have hMarker : Directive.marker.isPrefixOf (first :: (rest ++ '\n' :: more)) =
      Directive.marker.isPrefixOf (first :: rest) :=
    Text.isPrefixOf_append_lineFeed (by decide) (first :: rest) more
  have hOutside : Extends ('\n' :: more) (outsideGroup first rest)
      (outsideGroup first (rest ++ '\n' :: more)) := by
    unfold outsideGroup
    split
    · exact extends_fault _ _ _ _ _
    · exact Operator.read_extends more first rest
  unfold ofText
  simp only [hHead '/' (by decide), hHead '*' (by decide), hHead '[' (by decide), hMarker]
  split
  · rename_i hLine
    rw [hTail hLine.2]
    exact Comment.readLine_extends more _
  split
  · rename_i hBlock
    rw [hTail hBlock.2]
    exact Comment.readBlock_extends _ _
  split
  · exact Directive.read_extends more first rest
  split
  · exact Word.read_extends more first rest
  split
  · exact Number.read_extends more first rest
  split
  · rename_i hQuote
    exact Literal.read_extends hQuote rest _
  split
  · exact extends_lexeme _ _ _
  unfold atBracket
  split
  · exact Group.read_extends _ rest _
  split
  · exact GenericArguments.read?_extends more hOutside rest
  · exact hOutside

end FlatSyntax
