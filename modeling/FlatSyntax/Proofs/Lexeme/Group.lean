import FlatSyntax.Lexeme.Group
import FlatSyntax.Proofs.Lexeme.Comment
import FlatSyntax.Proofs.Lexeme.Literal

/-! The inside of a bracket group as a grammar. Reading keeps a stack of open brackets; the grammar
nests instead. Every text divides in one way into what the grammar passes over and the place where
the group ends or breaks, and reading finds exactly that place. -/
namespace FlatSyntax.Group

/-- A character without a meaning of its own inside a group. -/
def IsPlain (c : Char) : Prop :=
  Literal.isQuote c = false ∧ Bracket.ofOpener? c = none ∧ Bracket.ofCloser? c = none

/-- A text that starts with the opening marker of a comment. -/
def OpensComment (text : List Char) : Prop :=
  ['/', '/'] <+: text ∨ ['/', '*'] <+: text

/-- What stands inside a group and is no group: `Item item after` says that `item` is one whole item
where the text `after` follows. Literals that are cut off and line comments reach up to a line
feed, which is not part of them. -/
inductive Item : List Char → List Char → Prop where
  | literal {quote : Char} {raw after : List Char} (hQuote : Literal.isQuote quote = true)
      (hInside : Literal.Inside quote raw) : Item (quote :: raw ++ [quote]) after
  | cutLiteral {quote : Char} {raw after : List Char} (hQuote : Literal.isQuote quote = true)
      (hInside : Literal.Inside quote raw) (hLine : after.head? = some '\n') :
      Item (quote :: raw) after
  | lineComment {inner after : List Char} (hInner : '\n' ∉ inner)
      (hLine : after.head? = some '\n') : Item ('/' :: '/' :: inner) after
  | blockComment {inner after : List Char} (hInner : ¬ Comment.closing <:+: inner) :
      Item ('/' :: '*' :: inner ++ Comment.closing) after
  | char {c : Char} {after : List Char} (hPlain : IsPlain c)
      (hComment : ¬ OpensComment (c :: after)) : Item [c] after

/-- Items and whole groups one after the other, where the text `after` follows them. -/
inductive Inside : List Char → List Char → Prop where
  | nil {after : List Char} : Inside [] after
  | item {item more after : List Char} (hItem : Item item (more ++ after))
      (hMore : Inside more after) : Inside (item ++ more) after
  | group {bracket : Bracket} {inner more after : List Char}
      (hInner : Inside inner (bracket.closer :: (more ++ after))) (hMore : Inside more after) :
      Inside (bracket.opener :: inner ++ bracket.closer :: more) after

/-- A text that may stand between the brackets of a group. -/
def IsBody (text : List Char) : Prop :=
  Inside text []

/-- A text passed inside a group, where the text `after` follows it. The brackets `nested` are open
after it, innermost first; between them stand only items and whole groups. -/
inductive Open : List Bracket → List Char → List Char → Prop where
  | inside {inner after : List Char} (hInner : Inside inner after) : Open [] inner after
  | opener {nested : List Bracket} {bracket : Bracket} {passed inner after : List Char}
      (hOuter : Open nested passed (bracket.opener :: (inner ++ after)))
      (hInner : Inside inner after) :
      Open (bracket :: nested) (passed ++ bracket.opener :: inner) after

/-- The rest of a text that holds nothing to close a group by: the end, or a literal or a line
comment that reaches it. -/
inductive Endless : List Char → Prop where
  | ended : Endless []
  | literal {quote : Char} {raw tail : List Char} (hQuote : Literal.isQuote quote = true)
      (hInside : Literal.Inside quote raw) (hTail : tail = [] ∨ tail = ['\\']) :
      Endless (quote :: raw ++ tail)
  | lineComment {inner : List Char} (hInner : '\n' ∉ inner) : Endless ('/' :: '/' :: inner)

/-- How a group in the brackets `own` ends at a text, where the brackets `nested` are open. Only a
text that ends the group without a closing bracket or a comment counts as part of it. -/
inductive EndsAt (own : Bracket) : List Bracket → List Char → Body → Prop where
  | closed (rest : List Char) : EndsAt own [] (own.closer :: rest) ⟨[], .closed rest⟩
  | unbalanced {nested : List Bracket} {bracket : Bracket} (rest : List Char)
      (hOther : bracket ≠ nested.headD own) :
      EndsAt own nested (bracket.closer :: rest)
        ⟨[], .unbalanced bracket (bracket.closer :: rest)⟩
  | unterminatedComment {nested : List Bracket} {inner : List Char}
      (hInner : ¬ Comment.closing <:+: inner) :
      EndsAt own nested ('/' :: '*' :: inner) ⟨[], .unterminatedComment ('/' :: '*' :: inner)⟩
  | unterminated {nested : List Bracket} {tail : List Char} (hTail : Endless tail) :
      EndsAt own nested tail ⟨tail, .unterminated⟩

theorem Body.after_after (first second : List Char) (body : Body) :
    (body.after second).after first = body.after (first ++ second) := by
  simp [Body.after]

section Steps

variable (own : Bracket) (nested : List Bracket)

/-- What the brackets decide where no literal and no comment starts. -/
def atBracket (c : Char) (rest : List Char) : Body :=
  match Bracket.ofOpener? c, Bracket.ofCloser? c, nested with
  | some bracket, _, _ => (readBody own (bracket :: nested) rest).after [c]
  | none, some bracket, [] =>
      if bracket = own then ⟨[], .closed rest⟩
      else ⟨[], .unbalanced bracket (c :: rest)⟩
  | none, some bracket, innermost :: outer =>
      if bracket = innermost then (readBody own outer rest).after [c]
      else ⟨[], .unbalanced bracket (c :: rest)⟩
  | none, none, _ => (readBody own nested rest).after [c]

theorem readBody_cons (c : Char) (rest : List Char) :
    readBody own nested (c :: rest) =
      if Literal.isQuote c then
        (readBody own nested (Literal.skip c rest).2).after (c :: (Literal.skip c rest).1)
      else if c = '/' ∧ rest.head? = some '/' then
        (readBody own nested (Text.afterSourceLine rest)).after (c :: Text.sourceLine rest)
      else if c = '/' ∧ rest.head? = some '*' then
        match Comment.splitBlock rest.tail with
        | some (inner, after) =>
            (readBody own nested after).after ('/' :: '*' :: inner ++ ['*', '/'])
        | none => ⟨[], .unterminatedComment (c :: rest)⟩
      else atBracket own nested c rest := by
  rw [readBody.eq_def]
  dsimp only
  split
  · rfl
  split
  · rfl
  split
  · split
    · rename_i hSplit
      rw [hSplit]
    · rename_i hSplit
      rw [hSplit]
  · rfl

theorem readBody_quote {quote : Char} (hQuote : Literal.isQuote quote = true) (text : List Char) :
    readBody own nested (quote :: text) =
      (readBody own nested (Literal.skip quote text).2).after
        (quote :: (Literal.skip quote text).1) := by
  rw [readBody_cons, if_pos hQuote]

theorem readBody_lineComment (text : List Char) :
    readBody own nested ('/' :: '/' :: text) =
      (readBody own nested (Text.afterSourceLine text)).after
        ('/' :: '/' :: Text.sourceLine text) := by
  rw [readBody_cons, if_neg (by decide), if_pos ⟨rfl, rfl⟩]
  simp [Text.sourceLine, Text.afterSourceLine]

theorem readBody_blockComment {inner : List Char} (hInner : ¬ Comment.closing <:+: inner)
    (rest : List Char) :
    readBody own nested ('/' :: '*' :: inner ++ Comment.closing ++ rest) =
      (readBody own nested rest).after ('/' :: '*' :: inner ++ Comment.closing) := by
  have hText : '/' :: '*' :: inner ++ Comment.closing ++ rest =
      '/' :: '*' :: (inner ++ '*' :: '/' :: rest) := by simp [Comment.closing]
  rw [hText, readBody_cons, if_neg (by decide), if_neg (by simp), if_pos ⟨rfl, rfl⟩,
    List.tail_cons, Comment.splitBlock_append hInner]
  rfl

theorem readBody_unterminatedComment {inner : List Char} (hInner : ¬ Comment.closing <:+: inner) :
    readBody own nested ('/' :: '*' :: inner) =
      ⟨[], .unterminatedComment ('/' :: '*' :: inner)⟩ := by
  rw [readBody_cons, if_neg (by decide), if_neg (by simp), if_pos ⟨rfl, rfl⟩, List.tail_cons,
    Comment.splitBlock_eq_none_iff.mpr hInner]

theorem readBody_of_not_opensComment {c : Char} {rest : List Char}
    (hQuote : Literal.isQuote c = false) (hComment : ¬ OpensComment (c :: rest)) :
    readBody own nested (c :: rest) = atBracket own nested c rest := by
  have hLine : ¬ (c = '/' ∧ rest.head? = some '/') := by
    rintro ⟨rfl, hHead⟩
    obtain ⟨more, rfl⟩ := List.head?_eq_some_iff.mp hHead
    exact hComment (Or.inl ⟨more, rfl⟩)
  have hBlock : ¬ (c = '/' ∧ rest.head? = some '*') := by
    rintro ⟨rfl, hHead⟩
    obtain ⟨more, rfl⟩ := List.head?_eq_some_iff.mp hHead
    exact hComment (Or.inr ⟨more, rfl⟩)
  rw [readBody_cons, if_neg (by simp [hQuote]), if_neg hLine, if_neg hBlock]

theorem not_opensComment_of_ne {c : Char} (hSlash : c ≠ '/') (rest : List Char) :
    ¬ OpensComment (c :: rest) := by
  rintro (hLine | hBlock)
  · exact hSlash (List.cons_prefix_cons.mp hLine).1.symm
  · exact hSlash (List.cons_prefix_cons.mp hBlock).1.symm

theorem readBody_plain {c : Char} {rest : List Char} (hPlain : IsPlain c)
    (hComment : ¬ OpensComment (c :: rest)) :
    readBody own nested (c :: rest) = (readBody own nested rest).after [c] := by
  rw [readBody_of_not_opensComment own nested hPlain.1 hComment, atBracket.eq_def, hPlain.2.1,
    hPlain.2.2]

theorem readBody_opener (bracket : Bracket) (rest : List Char) :
    readBody own nested (bracket.opener :: rest) =
      (readBody own (bracket :: nested) rest).after [bracket.opener] := by
  rw [readBody_of_not_opensComment own nested (by cases bracket <;> decide)
    (not_opensComment_of_ne (by cases bracket <;> decide) rest), atBracket.eq_def,
    Bracket.ofOpener?_eq_some.mpr rfl]

theorem readBody_closer_nested (bracket : Bracket) (rest : List Char) :
    readBody own (bracket :: nested) (bracket.closer :: rest) =
      (readBody own nested rest).after [bracket.closer] := by
  have hOpener : Bracket.ofOpener? bracket.closer = none := by cases bracket <;> decide
  rw [readBody_of_not_opensComment own _ (by cases bracket <;> decide)
    (not_opensComment_of_ne (by cases bracket <;> decide) rest), atBracket.eq_def, hOpener,
    Bracket.ofCloser?_eq_some.mpr rfl]
  exact if_pos rfl

theorem readBody_closer_own (rest : List Char) :
    readBody own [] (own.closer :: rest) = ⟨[], .closed rest⟩ := by
  have hOpener : Bracket.ofOpener? own.closer = none := by cases own <;> decide
  rw [readBody_of_not_opensComment own _ (by cases own <;> decide)
    (not_opensComment_of_ne (by cases own <;> decide) rest), atBracket.eq_def, hOpener,
    Bracket.ofCloser?_eq_some.mpr rfl]
  exact if_pos rfl

theorem readBody_unbalanced {bracket : Bracket} (hOther : bracket ≠ nested.headD own)
    (rest : List Char) :
    readBody own nested (bracket.closer :: rest) =
      ⟨[], .unbalanced bracket (bracket.closer :: rest)⟩ := by
  have hOpener : Bracket.ofOpener? bracket.closer = none := by cases bracket <;> decide
  rw [readBody_of_not_opensComment own _ (by cases bracket <;> decide)
    (not_opensComment_of_ne (by cases bracket <;> decide) rest), atBracket.eq_def, hOpener,
    Bracket.ofCloser?_eq_some.mpr rfl]
  cases nested <;> exact if_neg hOther

end Steps

theorem readBody_item {item after : List Char} (hItem : Item item after) (own : Bracket)
    (nested : List Bracket) :
    readBody own nested (item ++ after) = (readBody own nested after).after item := by
  cases hItem with
  | @literal quote raw _ hQuote hInside =>
      have hSkip : Literal.skip quote (raw ++ quote :: after) = (raw ++ [quote], after) := by
        rw [Literal.skip_inside hInside (Literal.ne_of_isQuote hQuote).1, Literal.skip_quote]
      have hText : quote :: raw ++ [quote] ++ after = quote :: (raw ++ quote :: after) := by simp
      rw [hText, readBody_quote own nested hQuote, hSkip]
      rfl
  | @cutLiteral quote raw _ hQuote hInside hLine =>
      obtain ⟨hEscape, hFeed, -⟩ := Literal.ne_of_isQuote hQuote
      obtain ⟨more, rfl⟩ := List.head?_eq_some_iff.mp hLine
      have hSkip : Literal.skip quote (raw ++ '\n' :: more) = (raw, '\n' :: more) := by
        rw [Literal.skip_inside hInside hEscape, Literal.skip_lineFeed hFeed, List.append_nil]
      rw [List.cons_append, readBody_quote own nested hQuote, hSkip]
  | @lineComment inner _ hInner hLine =>
      have hFeed : ∀ c ∈ after.head?, c = '\n' := by simp [hLine]
      obtain ⟨hSame, hAfter⟩ := Text.sourceLine_append hInner hFeed
      rw [List.cons_append, List.cons_append, readBody_lineComment, hSame, hAfter]
  | blockComment hInner => exact readBody_blockComment own nested hInner after
  | char hPlain hComment => exact readBody_plain own nested hPlain hComment

/-- What stands inside a group leaves the open brackets as they are. -/
theorem readBody_inside {inner after : List Char} (hInside : Inside inner after) (own : Bracket)
    (nested : List Bracket) :
    readBody own nested (inner ++ after) = (readBody own nested after).after inner := by
  induction hInside generalizing nested with
  | nil => rfl
  | item hItem hMore ih =>
      rw [List.append_assoc, readBody_item hItem, ih, Body.after_after]
  | @group bracket inner more after hInner hMore ihInner ihMore =>
      rw [List.append_assoc, List.cons_append, List.cons_append, readBody_opener, ihInner,
        readBody_closer_nested, ihMore]
      simp [Body.after]

theorem readBody_open {nested : List Bracket} {passed after : List Char}
    (hOpen : Open nested passed after) (own : Bracket) :
    readBody own [] (passed ++ after) = (readBody own nested after).after passed := by
  induction hOpen with
  | inside hInner => exact readBody_inside hInner own []
  | opener hOuter hInner ih =>
      rw [List.append_assoc, List.cons_append, ih, readBody_opener, readBody_inside hInner]
      simp [Body.after]

/-- At the end of the text reading passes over the rest. -/
theorem readBody_endless {tail : List Char} (hTail : Endless tail) (own : Bracket)
    (nested : List Bracket) : readBody own nested tail = ⟨tail, .unterminated⟩ := by
  have hEnd : readBody own nested [] = ⟨[], .unterminated⟩ := readBody.eq_1 own nested
  cases hTail with
  | ended => exact hEnd
  | @literal quote raw tail hQuote hInside hTail =>
      have hEscape := (Literal.ne_of_isQuote hQuote).1
      have hSkip : Literal.skip quote (raw ++ tail) = (raw ++ tail, []) := by
        rw [Literal.skip_inside hInside hEscape]
        rcases hTail with rfl | rfl
        · rfl
        · simp [Literal.skip, Ne.symm hEscape]
      rw [List.cons_append, readBody_quote own nested hQuote, hSkip, hEnd]
      simp [Body.after]
  | lineComment hInner =>
      have hEmpty : ∀ c ∈ ([] : List Char).head?, c = '\n' := by simp
      obtain ⟨hLine, hAfter⟩ := Text.sourceLine_append hInner hEmpty
      rw [List.append_nil] at hLine hAfter
      rw [readBody_lineComment, hLine, hAfter, hEnd]
      simp [Body.after]

theorem readBody_endsAt {own : Bracket} {nested : List Bracket} {tail : List Char} {last : Body}
    (hEnds : EndsAt own nested tail last) : readBody own nested tail = last := by
  cases hEnds with
  | closed rest => exact readBody_closer_own own rest
  | unbalanced rest hOther => exact readBody_unbalanced own nested hOther rest
  | unterminatedComment hInner => exact readBody_unterminatedComment own nested hInner
  | unterminated hTail => exact readBody_endless hTail own nested

theorem Inside.append {front back after : List Char} (hFront : Inside front (back ++ after))
    (hBack : Inside back after) : Inside (front ++ back) after := by
  generalize hText : back ++ after = text at hFront
  induction hFront with
  | nil => exact hBack
  | item hItem _ ih =>
      subst hText
      rw [List.append_assoc]
      rw [← List.append_assoc] at hItem
      exact .item hItem (ih rfl)
  | @group bracket inner more _ hInner _ _ ih =>
      subst hText
      rw [List.append_assoc, List.cons_append]
      rw [← List.append_assoc] at hInner
      exact .group hInner (ih rfl)

theorem Open.prepend {nested : List Bracket} {front passed after : List Char}
    (hOpen : Open nested passed after) (hFront : Inside front (passed ++ after)) :
    Open nested (front ++ passed) after := by
  induction hOpen with
  | inside hInner => exact .inside (hFront.append hInner)
  | opener _ hInner ih =>
      rw [List.append_assoc, List.cons_append] at hFront
      rw [← List.append_assoc]
      exact .opener (ih hFront) hInner

/-- An opening bracket in front of everything becomes the outermost open one. -/
theorem Open.enclose {nested : List Bracket} {passed after : List Char}
    (hOpen : Open nested passed after) (bracket : Bracket) :
    Open (nested ++ [bracket]) (bracket.opener :: passed) after := by
  induction hOpen with
  | inside hInner => exact .opener (.inside .nil) hInner
  | opener _ hInner ih => exact .opener ih hInner

/-- A place where no group can go on: a closing bracket that does not match the innermost open one,
a comment without an end, or nothing that could close a group. -/
inductive Broken : List Bracket → List Char → Prop where
  | unbalanced {innermost bracket : Bracket} {outer : List Bracket} (rest : List Char)
      (hOther : bracket ≠ innermost) : Broken (innermost :: outer) (bracket.closer :: rest)
  | unterminatedComment {nested : List Bracket} {inner : List Char}
      (hInner : ¬ Comment.closing <:+: inner) : Broken nested ('/' :: '*' :: inner)
  | unterminated {nested : List Bracket} {tail : List Char} (hTail : Endless tail) :
      Broken nested tail

theorem Broken.append {nested : List Bracket} {tail : List Char} (hBroken : Broken nested tail)
    (outer : List Bracket) : Broken (nested ++ outer) tail := by
  cases hBroken with
  | unbalanced rest hOther => exact .unbalanced rest hOther
  | unterminatedComment hInner => exact .unterminatedComment hInner
  | unterminated hTail => exact .unterminated hTail

theorem Broken.endsAt {nested : List Bracket} {tail : List Char} (hBroken : Broken nested tail)
    (own : Bracket) : ∃ last, EndsAt own nested tail last := by
  cases hBroken with
  | unbalanced rest hOther => exact ⟨_, .unbalanced rest hOther⟩
  | unterminatedComment hInner => exact ⟨_, .unterminatedComment hInner⟩
  | unterminated hTail => exact ⟨_, .unterminated hTail⟩

/-- A text goes on up to a closing bracket for which nothing was opened in it, or breaks. -/
def Divides (text : List Char) : Prop :=
  (∃ inner bracket rest, text = inner ++ Bracket.closer bracket :: rest ∧
      Inside inner (Bracket.closer bracket :: rest)) ∨
    ∃ passed nested tail, text = passed ++ tail ∧ Open nested passed tail ∧ Broken nested tail

theorem Divides.prepend {front text : List Char} (hText : Divides text)
    (hFront : Inside front text) : Divides (front ++ text) := by
  rcases hText with ⟨inner, bracket, rest, rfl, hInner⟩ |
    ⟨passed, nested, tail, rfl, hOpen, hBroken⟩
  · exact Or.inl ⟨front ++ inner, bracket, rest, by rw [List.append_assoc], hFront.append hInner⟩
  · exact Or.inr ⟨front ++ passed, nested, tail, by rw [List.append_assoc], hOpen.prepend hFront,
      hBroken⟩

theorem Divides.broken {text : List Char} (hBroken : Broken [] text) : Divides text :=
  Or.inr ⟨[], [], text, rfl, .inside .nil, hBroken⟩

theorem Item.divides {item after : List Char} (hItem : Item item after) (hAfter : Divides after) :
    Divides (item ++ after) := by
  have hInside : Inside (item ++ []) after := .item hItem .nil
  rw [List.append_nil] at hInside
  exact hAfter.prepend hInside

/-- After an opening bracket comes its group, with whatever follows that, or a break inside it. -/
theorem Divides.opener {bracket : Bracket} {text : List Char} (hText : Divides text)
    (hRest : ∀ rest : List Char, rest.length < text.length → Divides rest) :
    Divides (bracket.opener :: text) := by
  rcases hText with ⟨inner, closing, rest, rfl, hInner⟩ |
    ⟨passed, nested, tail, rfl, hOpen, hBroken⟩
  · by_cases hSame : closing = bracket
    · subst hSame
      have hGroup : Inside (closing.opener :: inner ++ closing.closer :: []) rest :=
        .group hInner .nil
      have hAll := (hRest rest (by simp only [List.length_append, List.length_cons]; omega)).prepend
        hGroup
      simpa using hAll
    · exact Or.inr ⟨bracket.opener :: inner, [bracket], closing.closer :: rest, rfl,
        .opener (.inside .nil) hInner, .unbalanced rest hSame⟩
  · exact Or.inr ⟨bracket.opener :: passed, nested ++ [bracket], tail, rfl, hOpen.enclose bracket,
      hBroken.append [bracket]⟩

/-- A literal that is closed or cut off is an item; one that reaches the end is the last thing. -/
theorem Divides.literal {quote : Char} {text : List Char} (hQuote : Literal.isQuote quote = true)
    (hRest : ∀ rest : List Char, rest.length ≤ text.length → Divides rest) :
    Divides (quote :: text) := by
  obtain ⟨raw, tail, rfl, hInside, hHead | hCut⟩ := Literal.exists_inside_of_text quote text
  · obtain ⟨rest, rfl⟩ := List.head?_eq_some_iff.mp hHead
    have hItem : Item (quote :: raw ++ [quote]) rest := .literal hQuote hInside
    have hShorter : rest.length ≤ (raw ++ quote :: rest).length := by
      rw [List.length_append, List.length_cons]
      omega
    have hAll := hItem.divides (hRest rest hShorter)
    simpa using hAll
  · cases hCut with
    | lineFeed rest =>
        have hItem : Item (quote :: raw) ('\n' :: rest) := .cutLiteral hQuote hInside rfl
        exact hItem.divides (hRest _ (by simp))
    | ended => exact .broken (.unterminated (.literal hQuote hInside (Or.inl rfl)))
    | lonelyEscape => exact .broken (.unterminated (.literal hQuote hInside (Or.inr rfl)))

theorem Divides.lineComment {text : List Char}
    (hRest : ∀ rest : List Char, rest.length ≤ text.length → Divides rest) :
    Divides ('/' :: '/' :: text) := by
  have hInner := Text.lineFeed_notMem_sourceLine text
  rw [← Text.sourceLine_append_afterSourceLine text]
  cases hAfter : Text.afterSourceLine text with
  | nil =>
      rw [List.append_nil]
      exact .broken (.unterminated (.lineComment hInner))
  | cons c rest =>
      have hFeed : (c :: rest).head? = some '\n' := by
        have hHead : c ∈ (Text.afterSourceLine text).head? := by rw [hAfter]; rfl
        rw [Text.head?_afterSourceLine hHead]
        rfl
      have hItem : Item ('/' :: '/' :: Text.sourceLine text) (c :: rest) :=
        .lineComment hInner hFeed
      apply hItem.divides
      apply hRest
      rw [← hAfter]
      exact Text.afterSourceLine_length_le text

theorem Divides.blockComment {text : List Char}
    (hRest : ∀ rest : List Char, rest.length ≤ text.length → Divides rest) :
    Divides ('/' :: '*' :: text) := by
  cases hSplit : Comment.splitBlock text with
  | none => exact .broken (.unterminatedComment (Comment.splitBlock_eq_none_iff.mp hSplit))
  | some parts =>
      obtain ⟨inner, after⟩ := parts
      have hItem : Item ('/' :: '*' :: inner ++ Comment.closing) after :=
        .blockComment (Comment.not_closing_infix_of_splitBlock hSplit)
      have hAll := hItem.divides (hRest after (Nat.le_of_lt (Comment.splitBlock_length_lt hSplit)))
      rw [Comment.eq_append_of_splitBlock hSplit]
      simpa [Comment.closing] using hAll

theorem divides (text : List Char) : Divides text := by
  generalize hLength : text.length = length
  -- one item or group may be much longer than one character, so the induction is on the length
  induction length using Nat.strongRecOn generalizing text with
  | ind length ih =>
      cases text with
      | nil => exact .broken (.unterminated .ended)
      | cons c rest =>
          have hRest (shorter : List Char) (hLe : shorter.length ≤ rest.length) :
              Divides shorter :=
            ih shorter.length (by rw [← hLength, List.length_cons]; omega) shorter rfl
          by_cases hQuote : Literal.isQuote c = true
          · exact .literal hQuote hRest
          by_cases hComment : OpensComment (c :: rest)
          · rcases hComment with ⟨more, hText⟩ | ⟨more, hText⟩
            · simp only [List.cons_append, List.nil_append, List.cons.injEq] at hText
              obtain ⟨rfl, rfl⟩ := hText
              exact .lineComment fun shorter hLe => hRest shorter (by rw [List.length_cons]; omega)
            · simp only [List.cons_append, List.nil_append, List.cons.injEq] at hText
              obtain ⟨rfl, rfl⟩ := hText
              exact .blockComment fun shorter hLe => hRest shorter (by rw [List.length_cons]; omega)
          cases hOpener : Bracket.ofOpener? c with
          | some bracket =>
              rw [Bracket.ofOpener?_eq_some.mp hOpener]
              exact (hRest rest (Nat.le_refl _)).opener fun shorter hLt =>
                hRest shorter (Nat.le_of_lt hLt)
          | none =>
              cases hCloser : Bracket.ofCloser? c with
              | some bracket =>
                  rw [Bracket.ofCloser?_eq_some.mp hCloser]
                  exact Or.inl ⟨[], bracket, rest, rfl, .nil⟩
              | none =>
                  have hItem : Item [c] rest :=
                    .char ⟨by simpa using hQuote, hOpener, hCloser⟩ hComment
                  exact hItem.divides (hRest rest (Nat.le_refl _))

/-- The place where a group in given brackets ends, found by the grammar. -/
theorem exists_place (own : Bracket) (text : List Char) :
    ∃ passed nested tail last, text = passed ++ tail ∧ Open nested passed tail ∧
      EndsAt own nested tail last := by
  rcases divides text with ⟨inner, bracket, rest, rfl, hInner⟩ |
    ⟨passed, nested, tail, rfl, hOpen, hBroken⟩
  · by_cases hSame : bracket = own
    · subst hSame
      exact ⟨inner, [], _, _, rfl, .inside hInner, .closed rest⟩
    · exact ⟨inner, [], _, _, rfl, .inside hInner, .unbalanced rest hSame⟩
  · obtain ⟨last, hEnds⟩ := hBroken.endsAt own
    exact ⟨passed, nested, tail, last, rfl, hOpen, hEnds⟩

/-- Reading ends a group where the grammar does, and nowhere else. -/
theorem readBody_eq_iff (own : Bracket) (text : List Char) (body : Body) :
    readBody own [] text = body ↔
      ∃ passed nested tail last, text = passed ++ tail ∧ Open nested passed tail ∧
        EndsAt own nested tail last ∧ body = last.after passed := by
  have hRead {passed tail : List Char} {nested : List Bracket} {last : Body}
      (hOpen : Open nested passed tail) (hEnds : EndsAt own nested tail last) :
      readBody own [] (passed ++ tail) = last.after passed := by
    rw [readBody_open hOpen own, readBody_endsAt hEnds]
  constructor
  · rintro rfl
    obtain ⟨passed, nested, tail, last, rfl, hOpen, hEnds⟩ := exists_place own text
    exact ⟨passed, nested, tail, last, rfl, hOpen, hEnds, hRead hOpen hEnds⟩
  · rintro ⟨passed, nested, tail, last, rfl, hOpen, hEnds, rfl⟩
    exact hRead hOpen hEnds

/-- A text that makes no difference to the item before it: it neither starts a line end nor makes
a comment of a slash. A closing bracket starts such a text, so an inside before one is the same as
at the end of a text. -/
def Neutral (text : List Char) : Prop :=
  ∀ c ∈ text.head?, c ≠ '\n' ∧ c ≠ '/' ∧ c ≠ '*'

theorem neutral_nil : Neutral [] := by
  intro c hMem
  cases hMem

theorem neutral_closer (bracket : Bracket) (rest : List Char) :
    Neutral (bracket.closer :: rest) := by
  intro c hMem
  obtain rfl : bracket.closer = c := Option.mem_some_iff.mp hMem
  cases bracket <;> decide

theorem Neutral.not_opensComment {text : List Char} (hText : Neutral text) (c : Char) :
    ¬ OpensComment (c :: text) := by
  cases text with
  | nil => simp [OpensComment]
  | cons d rest =>
      obtain ⟨-, hSlash, hStar⟩ := hText d rfl
      rintro (hLine | hBlock)
      · have hTail := (List.cons_prefix_cons.mp hLine).2
        exact hSlash (List.cons_prefix_cons.mp hTail).1.symm
      · have hTail := (List.cons_prefix_cons.mp hBlock).2
        exact hStar (List.cons_prefix_cons.mp hTail).1.symm

theorem Neutral.head?_ne_lineFeed {text : List Char} (hText : Neutral text) :
    text.head? ≠ some '\n' :=
  fun hHead => (hText '\n' hHead).1 rfl

theorem opensComment_append (c d : Char) (more after : List Char) :
    OpensComment (c :: (d :: more ++ after)) ↔ OpensComment [c, d] := by
  simp [OpensComment, List.cons_prefix_cons]

/-- An item stands before every neutral text or before none. -/
theorem Item.of_neutral {item more first second : List Char} (hItem : Item item (more ++ first))
    (hFirst : Neutral first) (hSecond : Neutral second) : Item item (more ++ second) := by
  have hHead (hLine : (more ++ first).head? = some '\n') : (more ++ second).head? = some '\n' := by
    cases more with
    | nil => exact absurd hLine hFirst.head?_ne_lineFeed
    | cons d more => exact hLine
  cases hItem with
  | literal hQuote hInside => exact .literal hQuote hInside
  | cutLiteral hQuote hInside hLine => exact .cutLiteral hQuote hInside (hHead hLine)
  | lineComment hInner hLine => exact .lineComment hInner (hHead hLine)
  | blockComment hInner => exact .blockComment hInner
  | @char c _ hPlain hComment =>
      refine .char hPlain ?_
      cases more with
      | nil => exact hSecond.not_opensComment c
      | cons d more =>
          rw [opensComment_append] at hComment ⊢
          exact hComment

theorem Inside.of_neutral {inner first second : List Char} (hInside : Inside inner first)
    (hFirst : Neutral first) (hSecond : Neutral second) : Inside inner second := by
  induction hInside generalizing second with
  | nil => exact .nil
  | item hItem _ ih => exact .item (hItem.of_neutral hFirst hSecond) (ih hFirst hSecond)
  | group _ _ ihInner ihMore =>
      exact .group (ihInner (neutral_closer _ _) (neutral_closer _ _)) (ihMore hFirst hSecond)

/-- What may stand in a group before a closing bracket does not depend on what comes after it. -/
theorem inside_closer_iff {inner rest : List Char} {bracket : Bracket} :
    Inside inner (bracket.closer :: rest) ↔ IsBody inner :=
  ⟨fun hInside => hInside.of_neutral (neutral_closer bracket rest) neutral_nil,
    fun hBody => hBody.of_neutral neutral_nil (neutral_closer bracket rest)⟩

/-- With no bracket open, only items and whole groups were passed. -/
theorem open_nil_iff {passed after : List Char} : Open [] passed after ↔ Inside passed after :=
  ⟨fun hOpen => by cases hOpen; assumption, .inside⟩

/-- Exactly a body and the closing bracket are read as a group. -/
theorem readBody_eq_closed_iff {own : Bracket} {text inner rest : List Char} :
    readBody own [] text = ⟨inner, .closed rest⟩ ↔
      IsBody inner ∧ text = inner ++ own.closer :: rest := by
  constructor
  · intro hRead
    obtain ⟨passed, nested, tail, last, rfl, hOpen, hEnds, hLast⟩ :=
      (readBody_eq_iff own text _).mp hRead
    cases hEnds with
    | closed after =>
        simp only [Body.after, List.append_nil, Body.mk.injEq, Ending.closed.injEq] at hLast
        obtain ⟨rfl, rfl⟩ := hLast
        exact ⟨inside_closer_iff.mp (open_nil_iff.mp hOpen), rfl⟩
    | unbalanced | unterminatedComment | unterminated => cases hLast
  · rintro ⟨hBody, rfl⟩
    rw [readBody_inside (inside_closer_iff.mpr hBody), readBody_closer_own]
    simp [Body.after]

/-- In at most one way a text goes on with a body and the closing bracket. -/
theorem body_unique {own : Bracket} {first second rest more : List Char} (hFirst : IsBody first)
    (hSecond : IsBody second) (hText : first ++ own.closer :: rest = second ++ own.closer :: more) :
    first = second ∧ rest = more := by
  have hRead : readBody own [] (first ++ own.closer :: rest) = ⟨first, .closed rest⟩ :=
    readBody_eq_closed_iff.mpr ⟨hFirst, rfl⟩
  rw [readBody_eq_closed_iff.mpr ⟨hSecond, hText⟩, Body.mk.injEq, Ending.closed.injEq] at hRead
  exact ⟨hRead.1.symm, hRead.2.symm⟩

/-- What is read as a group has a body between its brackets. -/
theorem read_eq_lexeme {bracket : Bracket} {text after : List Char} {lexeme : Lexeme}
    (hRead : read bracket text = .lexeme lexeme after) :
    ∃ inner, lexeme = ⟨bracket.kind, inner, bracket.opener, inner ++ [bracket.closer]⟩ ∧
      IsBody inner := by
  cases hBody : readBody bracket [] text with
  | mk inner ending =>
      rw [read, hBody] at hRead
      cases ending with
      | closed rest =>
          cases hRead
          exact ⟨inner, rfl, (readBody_eq_closed_iff.mp hBody).1⟩
      | unbalanced | unterminatedComment | unterminated => cases hRead

end FlatSyntax.Group
