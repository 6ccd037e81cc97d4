import FlatSyntax.Proofs.Lexeme.Start

/-! The text inside a group, read by itself. The reader of groups goes from item to item and takes
all else character by character, while the scanner also forms words, numbers, operators and markers.
None of these takes a character that starts an item or is a bracket, so both readers find the same
items and the same groups. -/
namespace FlatSyntax

namespace Group

/-- The characters that decide inside a group: a quote, a slash or a bracket. -/
def deciding : List Char :=
  '"' :: '\'' :: '/' :: Bracket.all.map Bracket.opener ++ Bracket.all.map Bracket.closer

theorem isPlain_of_notMem {c : Char} (hOther : c ∉ deciding) : IsPlain c ∧ c ≠ '/' := by
  have hQuote : Literal.isQuote c = false := by
    simp only [Literal.isQuote, Bool.or_eq_false_iff, beq_eq_false_iff_ne]
    constructor
    · rintro rfl
      exact hOther (by decide)
    · rintro rfl
      exact hOther (by decide)
  have hOpener : Bracket.ofOpener? c = none := by
    refine Option.eq_none_iff_forall_ne_some.mpr fun bracket hFound => hOther ?_
    rw [Bracket.ofOpener?_eq_some.mp hFound]
    cases bracket <;> decide
  have hCloser : Bracket.ofCloser? c = none := by
    refine Option.eq_none_iff_forall_ne_some.mpr fun bracket hFound => hOther ?_
    rw [Bracket.ofCloser?_eq_some.mp hFound]
    cases bracket <;> decide
  refine ⟨⟨hQuote, hOpener, hCloser⟩, ?_⟩
  rintro rfl
  exact hOther (by decide)

/-- A class of characters that holds none of the deciding ones. -/
theorem notMem_deciding {p : Char → Bool} (hNone : deciding.any p = false) {c : Char}
    (hClass : p c = true) : c ∉ deciding :=
  fun hDecides => List.any_eq_false.mp hNone c hDecides hClass

/-- An inside goes on behind a character that decides nothing. -/
theorem Inside.of_cons {c : Char} {rest after : List Char} (hInside : Inside (c :: rest) after)
    (hOther : c ∉ deciding) : Inside rest after := by
  obtain ⟨⟨hQuote, hOpener, -⟩, hSlash⟩ := isPlain_of_notMem hOther
  generalize hText : c :: rest = text at hInside
  cases hInside with
  | nil => cases hText
  | item hItem hMore =>
      cases hItem with
      | literal hLiteral | cutLiteral hLiteral =>
          obtain rfl := (List.cons.inj hText).1
          rw [hLiteral] at hQuote
          cases hQuote
      | lineComment | blockComment => exact absurd (List.cons.inj hText).1 hSlash
      | char =>
          obtain rfl := (List.cons.inj hText).2
          exact hMore
  | group =>
      rw [Bracket.ofOpener?_eq_some.mpr (List.cons.inj hText).1] at hOpener
      cases hOpener

theorem Inside.of_append {run rest after : List Char} (hInside : Inside (run ++ rest) after)
    (hRun : ∀ c ∈ run, c ∉ deciding) : Inside rest after := by
  induction run with
  | nil => exact hInside
  | cons c run ih =>
      obtain ⟨hFirst, hMore⟩ := List.forall_mem_cons.mp hRun
      exact ih (hInside.of_cons hFirst) hMore

end Group

/-- The problems that do not depend on the brackets or comments of a text. -/
inductive Problem.IsLocal : Problem → Prop where
  | string (quote : String) : IsLocal (.unterminatedString quote)
  | character (c : Char) : IsLocal (.invalidCharacter c)

/-- A reading after which the text goes on as the inside of a group, or that breaks at a problem
which has nothing to do with groups. -/
def Reading.StaysInside : Reading → Prop
  | .lexeme _ rest => Group.Inside rest []
  | .fault problem _ _ _ => problem.IsLocal

namespace Group

variable {first : Char} {rest : List Char}

/-- A lexeme leaves an inside if the characters that it takes decide nothing. -/
theorem Inside.stays {lexeme : Lexeme} {after : List Char} (hInside : Inside rest [])
    (hRest : rest = lexeme.more ++ after) (hMore : ∀ c ∈ lexeme.more, c ∉ deciding) :
    (Reading.lexeme lexeme after).StaysInside := by
  rw [hRest] at hInside
  exact hInside.of_append hMore

theorem Inside.stays_word (hInside : Inside rest []) : (Word.read first rest).StaysInside := by
  refine hInside.stays List.takeWhile_append_dropWhile.symm fun c hMem => ?_
  exact notMem_deciding (by decide) (List.all_eq_true.mp List.all_takeWhile c hMem)

/-- A number is made of digits and at most a point. -/
theorem Inside.stays_number (hInside : Inside rest []) : (Number.read first rest).StaysInside := by
  have hDigit {c : Char} (hDigit : Text.isDigit c = true) : c ∉ deciding :=
    notMem_deciding (by decide +kernel) hDigit
  have hWhole : ∀ c ∈ rest.takeWhile Text.isDigit, c ∉ deciding :=
    fun c hMem => hDigit (List.all_eq_true.mp List.all_takeWhile c hMem)
  have hRest := List.takeWhile_append_dropWhile (p := Text.isDigit) (l := rest)
  rcases Number.splitFraction_cases (rest.dropWhile Text.isDigit) with
    ⟨hNone, hAfter, -⟩ | ⟨fraction, after, hSplit, hFraction, -⟩
  · simp only [Number.read, hNone, hAfter, List.append_nil]
    exact hInside.stays hRest.symm hWhole
  · have hTail : '.' :: fraction ++ after = rest.dropWhile Text.isDigit := by
      have hParts := Number.splitFraction_append (rest.dropWhile Text.isDigit)
      rw [hSplit] at hParts
      exact hParts
    simp only [Number.read, hSplit]
    refine hInside.stays ?_ ?_
    · simp only [Lexeme.verbatim]
      rw [List.append_assoc, hTail, hRest]
    · have hPoint : ∀ c ∈ '.' :: fraction, c ∉ deciding :=
        List.forall_mem_cons.mpr ⟨by decide, fun c hMem => hDigit (hFraction.2 c hMem)⟩
      exact List.forall_mem_append.mpr ⟨hWhole, hPoint⟩

/-- The second character of an operator is none that decides. -/
theorem Inside.stays_operator (hInside : Inside rest []) :
    (Operator.read first rest).StaysInside := by
  have hSingle : (Operator.read.single first rest).StaysInside := by
    rw [Operator.read.single]
    split
    · exact hInside
    · exact .character first
  rw [Operator.read.eq_def]
  split
  · rename_i second after
    split
    · rename_i hPair
      have hSecond : ∀ pair ∈ Operator.pairs, pair.2 ∉ deciding := by decide
      exact hInside.of_cons (hSecond _ (List.contains_iff_mem.mp hPair))
    · exact hSingle
  · exact hSingle

/-- Where no item and no group starts, the scanner takes a character that decides nothing, and with
it only such characters. -/
theorem Inside.stays_of_plain (afterWord : Bool) (hInside : Inside rest []) (hPlain : IsPlain first)
    (hComment : ¬ OpensComment (first :: rest)) (hAngle : first ≠ '<')
    (hDirective : ¬ Directive.marker <+: first :: rest) :
    (Reading.ofText afterWord first rest).StaysInside := by
  generalize hReading : Reading.ofText afterWord first rest = reading
  cases Reading.ofText_eq_iff.mp hReading with
  | lineComment text => exact absurd (Or.inl ⟨text, rfl⟩) hComment
  | blockComment text => exact absurd (Or.inr ⟨text, rfl⟩) hComment
  | directive hMarker => exact absurd hMarker hDirective
  | word => exact hInside.stays_word
  | number => exact hInside.stays_number
  | literal hQuote =>
      rw [hPlain.1] at hQuote
      cases hQuote
  | marker text => exact hInside
  | group bracket =>
      have hOpener := hPlain.2.1
      rw [Bracket.ofOpener?_eq_some.mpr rfl] at hOpener
      cases hOpener
  | arguments => exact absurd rfl hAngle
  | closer bracket =>
      have hCloser := hPlain.2.2
      rw [Bracket.ofCloser?_eq_some.mpr rfl] at hCloser
      cases hCloser
  | operator => exact hInside.stays_operator

/-- The inside of a group is read item by item, group by group. Only generic arguments and
directives could reach over the bounds of these. -/
theorem Inside.stays_ofText (afterWord : Bool) (hInside : Inside (first :: rest) [])
    (hAngle : first ≠ '<') (hDirective : ¬ Directive.marker <+: first :: rest) :
    (Reading.ofText afterWord first rest).StaysInside := by
  generalize hText : first :: rest = text at hInside
  cases hInside with
  | nil => cases hText
  | @item item more _ hItem hMore =>
      rw [List.append_nil] at hItem
      cases hItem with
      | @literal quote raw _ hQuote hBody =>
          obtain ⟨rfl, hRest⟩ := List.cons.inj hText
          have hRest : rest = raw ++ first :: more := by simpa using hRest
          rw [Reading.ofText_literal hQuote, Literal.read, hRest,
            Literal.readBody_closed hBody (Literal.ne_of_isQuote hQuote).1]
          exact hMore
      | @cutLiteral quote raw _ hQuote hBody hLine =>
          obtain ⟨rfl, hRest⟩ : first = quote ∧ rest = raw ++ more := List.cons.inj hText
          obtain ⟨tail, rfl⟩ := List.head?_eq_some_iff.mp hLine
          have hCut := Literal.readBody_closed_eq_false hBody hQuote (.lineFeed tail)
          rw [Reading.ofText_literal hQuote, Literal.read, hRest, Literal.Body.reading, hCut]
          exact .string _
      | @lineComment inner _ hInner hLine =>
          obtain ⟨rfl, hRest⟩ : first = '/' ∧ rest = '/' :: (inner ++ more) := List.cons.inj hText
          have hFeed : ∀ c ∈ more.head?, c = '\n' := by simp [hLine]
          rw [hRest, ← (Reading.Starts.lineComment _).eq_ofText, Comment.readLine,
            (Text.sourceLine_append hInner hFeed).2]
          exact hMore
      | @blockComment inner _ hInner =>
          obtain ⟨rfl, hRest⟩ := List.cons.inj hText
          have hRest : rest = '*' :: (inner ++ '*' :: '/' :: more) := by
            rw [hRest]
            simp [Comment.closing]
          rw [hRest, ← (Reading.Starts.blockComment _).eq_ofText, Comment.readBlock,
            Comment.splitBlock_append hInner]
          exact hMore
      | char hPlain hComment =>
          obtain ⟨rfl, rfl⟩ := List.cons.inj hText
          exact hMore.stays_of_plain afterWord hPlain hComment hAngle hDirective
  | @group bracket inner more _ hInner hMore =>
      obtain ⟨rfl, hRest⟩ : first = bracket.opener ∧ rest = inner ++ bracket.closer :: more :=
        List.cons.inj hText
      have hBody : readBody bracket [] rest = ⟨inner, .closed more⟩ :=
        readBody_eq_closed_iff.mpr ⟨inside_closer_iff.mp hInner, hRest⟩
      rw [Reading.ofText_opener, Group.read, hBody]
      exact hMore

end Group

end FlatSyntax
