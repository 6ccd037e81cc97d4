import FlatSyntax.Bracket
import FlatSyntax.Lexeme.Comment
import FlatSyntax.Lexeme.Literal

/-!
Bracket groups: everything from an opening bracket to the closing bracket that matches it. Groups
nest; brackets inside literals and comments do not count.
-/

namespace FlatSyntax.Group

/-- How the reading of a group ends. -/
inductive Ending where
  /-- The matching closing bracket was found; `rest` is the text after it. -/
  | closed (rest : List Char)
  /-- A closing bracket that matches no open one was found; `rest` starts with it. -/
  | unbalanced (closer : Bracket) (rest : List Char)
  /-- A block comment, given with its opening marker, never ends. -/
  | unterminatedComment (comment : List Char)
  /-- The text ended inside the group. -/
  | unterminated
deriving DecidableEq, Repr

/-- The text read inside a group and how reading ended. -/
structure Body where
  inner : List Char
  ending : Ending
deriving DecidableEq, Repr

/-- Put the text read before in front of a body. -/
def Body.after (passed : List Char) (body : Body) : Body :=
  { body with inner := passed ++ body.inner }

/-- Read the inside of a group in the brackets `own`, of which the brackets `nested` are open,
innermost first. -/
def readBody (own : Bracket) (nested : List Bracket) : List Char → Body
  | [] => ⟨[], .unterminated⟩
  | c :: rest =>
      if Literal.isQuote c then
        let literal := Literal.skip c rest
        (readBody own nested literal.2).after (c :: literal.1)
      else if c = '/' ∧ rest.head? = some '/' then
        (readBody own nested (Text.afterSourceLine rest)).after (c :: Text.sourceLine rest)
      else if c = '/' ∧ rest.head? = some '*' then
        match _hSplit : Comment.splitBlock rest.tail with
        | some (inner, after) =>
            (readBody own nested after).after ('/' :: '*' :: inner ++ ['*', '/'])
        | none => ⟨[], .unterminatedComment (c :: rest)⟩
      else
        match Bracket.ofOpener? c, Bracket.ofCloser? c, nested with
        | some bracket, _, _ => (readBody own (bracket :: nested) rest).after [c]
        | none, some bracket, [] =>
            if bracket = own then ⟨[], .closed rest⟩
            else ⟨[], .unbalanced bracket (c :: rest)⟩
        | none, some bracket, innermost :: outer =>
            if bracket = innermost then (readBody own outer rest).after [c]
            else ⟨[], .unbalanced bracket (c :: rest)⟩
        | none, none, _ => (readBody own nested rest).after [c]
  termination_by text => text.length
  decreasing_by
    · exact Nat.lt_succ_of_le (Literal.skip_length_le c rest)
    · exact Nat.lt_succ_of_le (Text.afterSourceLine_length_le rest)
    · have hLength := Comment.splitBlock_length_lt _hSplit
      simp only [List.length_tail, List.length_cons] at hLength ⊢
      omega
    all_goals exact Nat.lt_succ_self _

/-- The text that remains where the reading of a group ends. -/
def Ending.source (own : Bracket) : Ending → List Char
  | closed rest => own.closer :: rest
  | unbalanced _ rest => rest
  | unterminatedComment comment => comment
  | unterminated => []

/-- Nothing is lost inside a group. -/
theorem readBody_append (own : Bracket) (nested : List Bracket) (text : List Char) :
    (readBody own nested text).inner ++ (readBody own nested text).ending.source own = text := by
  fun_induction readBody own nested text with
  | case1 => rfl
  | case2 nested c rest _ literal ih =>
      simp only [Body.after, List.append_assoc, List.cons_append, ih]
      rw [Literal.skip_append]
  | case3 nested c rest _ _ ih =>
      simp only [Body.after, List.append_assoc, List.cons_append, ih]
      rw [Text.sourceLine_append_afterSourceLine]
  | case4 nested c rest _ _ hStar inner after hSplit ih =>
      obtain ⟨rfl, hHead⟩ := hStar
      have hRest : rest = '*' :: (inner ++ '*' :: '/' :: after) := by
        rw [← Comment.eq_append_of_splitBlock hSplit]
        cases rest <;> simp_all
      simp [Body.after, ih, hRest]
  | case7 c rest _ _ _ _ hCloser =>
      simp [Ending.source, Bracket.ofCloser?_eq_some.mp hCloser]
  | _ => simp_all [Body.after, Ending.source]

/-- The group with the given body. -/
def Body.reading (bracket : Bracket) (body : Body) : Reading :=
  match body.ending with
  | .closed rest =>
      .lexeme
        { kind := bracket.kind, value := body.inner, first := bracket.opener,
          more := body.inner ++ [bracket.closer] }
        rest
  | .unbalanced closer rest =>
      .fault (.unbalancedDelimiter (String.singleton closer.closer)) (bracket.opener :: body.inner)
        [] rest
  | .unterminatedComment comment =>
      .fault .unterminatedComment (bracket.opener :: body.inner) comment []
  | .unterminated =>
      .fault
        (.unterminatedGroup (String.singleton bracket.opener) (String.singleton bracket.closer))
        [] (bracket.opener :: body.inner) []

/-- Read a group that starts with the opening bracket of the given kind, given the text after it. -/
def read (bracket : Bracket) (text : List Char) : Reading :=
  (readBody bracket [] text).reading bracket

@[simp] theorem source_read (bracket : Bracket) (text : List Char) :
    (read bracket text).source = bracket.opener :: text := by
  have hSource := readBody_append bracket [] text
  unfold read Body.reading
  generalize readBody bracket [] text = body at hSource
  obtain ⟨inner, ending⟩ := body
  cases ending <;> simp_all [Reading.source, Lexeme.raw, Ending.source]

end FlatSyntax.Group
