import FlatSyntax.Proofs.Lexeme.Start
import FlatSyntax.Scanner.Scan

/-! Scanning at an opening bracket. What the scanner finds there, token or problem, is told by the
grammar of groups and by nothing else. -/
namespace FlatSyntax

/-- What the grammar says is found at a cursor with an opening bracket of the kind `own`, before the
given text. -/
inductive Group.Finds (file : String) (cursor : Cursor) (own : Bracket) :
    List Char → Found → Prop where
  /-- A body and the closing bracket make a token, and the cursor moves behind the bracket. -/
  | group {inner rest : List Char} (hBody : IsBody inner) :
      Finds file cursor own (inner ++ own.closer :: rest)
        (.token
          { kind := own.kind, value := String.ofList inner, line := cursor.line,
            column := cursor.column }
          { cursor.advanceBy (inner.length + 2) with afterWord := false })
  /-- The first closing bracket that is not the one of the innermost open group is diagnosed where
  it stands. -/
  | unbalanced {nested : List Bracket} {passed rest : List Char} {other : Bracket}
      (hOpen : Open nested passed (other.closer :: rest)) (hOther : other ≠ nested.headD own) :
      Finds file cursor own (passed ++ other.closer :: rest)
        (.problem
          ((cursor.advanceBy (passed.length + 1)).diagnose file
            (.unbalancedDelimiter (String.singleton other.closer)))
          (cursor.advanceBy (passed.length + 1)))
  /-- A block comment without an end is diagnosed where it starts. -/
  | unterminatedComment {nested : List Bracket} {passed inner : List Char}
      (hOpen : Open nested passed ('/' :: '*' :: inner)) (hInner : ¬ Comment.closing <:+: inner) :
      Finds file cursor own (passed ++ '/' :: '*' :: inner)
        (.problem ((cursor.advanceBy (passed.length + 1)).diagnose file .unterminatedComment)
          ((cursor.advanceBy (passed.length + 1)).advanceBy (inner.length + 2)))
  /-- A text that ends before the group does is diagnosed at the opening bracket. -/
  | unterminated {nested : List Bracket} {passed tail : List Char} (hOpen : Open nested passed tail)
      (hTail : Endless tail) :
      Finds file cursor own (passed ++ tail)
        (.problem
          (cursor.diagnose file
            (.unterminatedGroup (String.singleton own.opener) (String.singleton own.closer)))
          (cursor.advanceBy ((passed ++ tail).length + 1)))

namespace Cursor

/-- At an opening bracket nothing but a group is read. -/
theorem next_of_opener {cursor : Cursor} {own : Bracket} {text : List Char}
    (hRest : cursor.rest = own.opener :: text) (file : String) :
    cursor.next file = cursor.place file (Group.read own text) := by
  have hGap : isGap own.opener = false := by cases own <;> decide
  rw [next_of_not_gap hRest hGap, Reading.ofText_opener]

theorem place_closed (file : String) (cursor : Cursor) (own : Bracket) (inner rest : List Char) :
    cursor.place file (Group.Body.reading own ⟨inner, .closed rest⟩) =
      .token
        { kind := own.kind, value := String.ofList inner, line := cursor.line,
          column := cursor.column }
        { cursor.advanceBy (inner.length + 2) with afterWord := false } := by
  have hLength : (own.opener :: (inner ++ [own.closer])).length = inner.length + 2 := by simp
  have hWord : Lexeme.isWord ⟨own.kind, inner, own.opener, inner ++ [own.closer]⟩ = false := by
    cases own <;> rfl
  simp only [place, Group.Body.reading, Lexeme.raw, hLength, hWord]

/-- The scanner finds what the grammar says, for the place where the grammar ends the group. -/
theorem finds_iff_endsAt {file : String} {cursor : Cursor} {own : Bracket} {text : List Char}
    {found : Found} :
    Group.Finds file cursor own text found ↔
      ∃ passed nested tail last, text = passed ++ tail ∧ Group.Open nested passed tail ∧
        Group.EndsAt own nested tail last ∧
        found = cursor.place file ((last.after passed).reading own) := by
  constructor
  · intro hFinds
    cases hFinds with
    | @group inner rest hBody =>
        have hOpen : Group.Open [] inner (own.closer :: rest) :=
          .inside (Group.inside_closer_iff.mpr hBody)
        refine ⟨inner, [], _, _, rfl, hOpen, .closed rest, ?_⟩
        rw [Group.Body.after, List.append_nil, place_closed]
    | unbalanced hOpen hOther =>
        refine ⟨_, _, _, _, rfl, hOpen, .unbalanced _ hOther, ?_⟩
        rw [Group.Body.after, List.append_nil]
        rfl
    | unterminatedComment hOpen hInner =>
        refine ⟨_, _, _, _, rfl, hOpen, .unterminatedComment hInner, ?_⟩
        rw [Group.Body.after, List.append_nil]
        rfl
    | unterminated hOpen hTail => exact ⟨_, _, _, _, rfl, hOpen, .unterminated hTail, rfl⟩
  · rintro ⟨passed, nested, tail, last, rfl, hOpen, hEnds, rfl⟩
    cases hEnds with
    | closed rest =>
        rw [Group.Body.after, List.append_nil, place_closed]
        exact .group (Group.inside_closer_iff.mp (Group.open_nil_iff.mp hOpen))
    | unbalanced rest hOther =>
        rw [Group.Body.after, List.append_nil]
        exact .unbalanced hOpen hOther
    | unterminatedComment hInner =>
        rw [Group.Body.after, List.append_nil]
        exact .unterminatedComment hOpen hInner
    | unterminated hTail => exact .unterminated hOpen hTail

theorem next_eq_iff_finds {cursor : Cursor} {own : Bracket} {text : List Char}
    (hRest : cursor.rest = own.opener :: text) (file : String) (found : Found) :
    cursor.next file = found ↔ Group.Finds file cursor own text found := by
  have hNext : cursor.next file = cursor.place file ((Group.readBody own [] text).reading own) :=
    next_of_opener hRest file
  rw [hNext, finds_iff_endsAt]
  constructor
  · rintro rfl
    obtain ⟨passed, nested, tail, last, hText, hOpen, hEnds, hBody⟩ :=
      (Group.readBody_eq_iff own text _).mp rfl
    exact ⟨passed, nested, tail, last, hText, hOpen, hEnds, by rw [hBody]⟩
  · rintro ⟨passed, nested, tail, last, hText, hOpen, hEnds, rfl⟩
    have hBody := (Group.readBody_eq_iff own text (last.after passed)).mpr
      ⟨passed, nested, tail, last, hText, hOpen, hEnds, rfl⟩
    rw [hBody]

end Cursor

/-- At an opening bracket the scanner finds exactly what the grammar of groups says. It finds a
token just where the text goes on with a body and the closing bracket, and then stops right after
that bracket; the text goes on so in at most one way. -/
theorem next_at_opener_iff_finds (file : String) {cursor : Cursor} {own : Bracket}
    {text : List Char} (hRest : cursor.rest = own.opener :: text) :
    (∀ found, cursor.next file = found ↔ Group.Finds file cursor own text found) ∧
      (∀ token after, cursor.next file = .token token after ↔
        ∃ inner rest, text = inner ++ own.closer :: rest ∧ Group.IsBody inner ∧
          token = ⟨own.kind, String.ofList inner, cursor.line, cursor.column⟩ ∧
          after = { cursor.advanceBy (inner.length + 2) with afterWord := false } ∧
          after.rest = rest) ∧
      ∀ inner rest inner' rest', text = inner ++ own.closer :: rest → Group.IsBody inner →
        text = inner' ++ own.closer :: rest' → Group.IsBody inner' →
        inner = inner' ∧ rest = rest' := by
  refine ⟨Cursor.next_eq_iff_finds hRest file, fun token after => ?_, ?_⟩
  · rw [Cursor.next_eq_iff_finds hRest]
    constructor
    · intro hToken
      cases hToken with
      | @group inner rest hBody =>
          refine ⟨inner, rest, rfl, hBody, rfl, rfl, ?_⟩
          rw [Cursor.rest_advanceBy, hRest]
          simp
    · rintro ⟨inner, rest, rfl, hBody, rfl, rfl, -⟩
      exact .group hBody
  · intro inner rest inner' rest' hText hBody hText' hBody'
    exact Group.body_unique hBody hBody' (hText.symm.trans hText')

theorem next_at_opener_iff_finds_nested :
    (Cursor.start "([']'])]".toList 1).rest = Bracket.round.opener :: "[']'])]".toList ∧
      (Cursor.start "([']'])]".toList 1).next "" =
        .token ⟨.round, "[']']", 1, 1⟩
          { rest := [']'], offset := 7, column := 8, lineText := "([']'])]".toList } := by
  have hRest : (Cursor.start "([']'])]".toList 1).rest =
      Bracket.round.opener :: "[']'])]".toList := rfl
  have hLiteral : Group.Inside ['\'', ']', '\''] [Bracket.square.closer] :=
    .item (.literal rfl (.plain (by decide) (by decide) (by decide) .nil)) .nil
  have hBody : Group.Inside (Bracket.square.opener :: ['\'', ']', '\''] ++ [']']) [] :=
    .group hLiteral .nil
  refine ⟨hRest, ((next_at_opener_iff_finds "" hRest).2.1 _ _).mpr ?_⟩
  exact ⟨"[']']".toList, [']'], rfl, hBody, rfl, rfl, rfl⟩

end FlatSyntax
