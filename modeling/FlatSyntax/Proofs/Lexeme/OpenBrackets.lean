import FlatSyntax.Proofs.Lexeme.Group

/-! The stack of open brackets of a group. Reading keeps the brackets that are nested in a group
apart from the group's own one, so that its stack can do without a bottom. Here the own bracket lies
at the bottom, the reading goes on in turns, and a turn that looks at the top of an empty stack has
an outcome of its own, which no turn of a group comes to. -/
namespace FlatSyntax.Group

/-- The outcome of one turn of reading. -/
inductive Turn where
  /-- Behind the text `passed` reading goes on with the brackets `stack` open. -/
  | goesOn (stack : List Bracket) (passed rest : List Char)
  | ends (ending : Ending)
  /-- The top of an empty stack was looked at. -/
  | underflow
deriving DecidableEq, Repr

/-- The turn at a closing bracket: it closes the bracket on top of the stack or is unbalanced, and
the group is closed with the last one. -/
def turnAtCloser (bracket : Bracket) (rest : List Char) : (stack : List Bracket) → Turn
  | [] => .underflow
  | top :: outer =>
      if bracket = top then
        if outer = [] then .ends (.closed rest) else .goesOn outer [bracket.closer] rest
      else .ends (.unbalanced bracket (bracket.closer :: rest))

/-- One turn of reading inside a group, with the open brackets on the stack, the innermost one on
top. -/
def turn (stack : List Bracket) : (text : List Char) → Turn
  | [] => .ends .unterminated
  | c :: rest =>
      if Literal.isQuote c then
        .goesOn stack (c :: (Literal.skip c rest).1) (Literal.skip c rest).2
      else if c = '/' ∧ rest.head? = some '/' then
        .goesOn stack (c :: Text.sourceLine rest) (Text.afterSourceLine rest)
      else if c = '/' ∧ rest.head? = some '*' then
        match Comment.splitBlock rest.tail with
        | some (inner, after) => .goesOn stack ('/' :: '*' :: inner ++ ['*', '/']) after
        | none => .ends (.unterminatedComment (c :: rest))
      else
        match Bracket.ofOpener? c, Bracket.ofCloser? c with
        | some bracket, _ => .goesOn (bracket :: stack) [c] rest
        | none, some bracket => turnAtCloser bracket rest stack
        | none, none => .goesOn stack [c] rest

/-- Where a group in the brackets `own`, read off a text, stands after a number of turns: the open
brackets, the text passed and the text left. -/
inductive Reaches (own : Bracket) (text : List Char) :
    Nat → List Bracket → List Char → List Char → Prop where
  | start : Reaches own text 0 [own] [] text
  | turn {count : Nat} {stack further : List Bracket} {passed rest more after : List Char}
      (hPrior : Reaches own text count stack passed rest)
      (hTurn : Group.turn stack rest = .goesOn further more after) :
      Reaches own text (count + 1) further (passed ++ more) after

variable {own : Bracket} {text : List Char} {count : Nat} {stack : List Bracket}
  {passed rest : List Char}

/-- What a turn means for the reading of a group whose own bracket is at the bottom of the stack. It
passes over a character at least, and the bracket stays where it is until the group ends. -/
def Turn.Advances (own : Bracket) (nested : List Bracket) (text : List Char) : Turn → Prop
  | goesOn stack passed rest =>
      passed ++ rest = text ∧ passed ≠ [] ∧ ∃ further, stack = further ++ [own] ∧
        readBody own nested text = (readBody own further rest).after passed
  | ends ending => readBody own nested text = ⟨[], ending⟩
  | underflow => False

theorem advances_turnAtCloser (own : Bracket) (nested : List Bracket) (bracket : Bracket)
    (rest : List Char) :
    (turnAtCloser bracket rest (nested ++ [own])).Advances own nested (bracket.closer :: rest) := by
  cases nested with
  | nil =>
      rw [List.nil_append, turnAtCloser]
      split
      · rename_i hOwn
        rw [if_pos rfl, hOwn]
        exact readBody_closer_own own rest
      · rename_i hOther
        exact readBody_unbalanced own [] hOther rest
  | cons top nested =>
      rw [List.cons_append, turnAtCloser]
      split
      · rename_i hTop
        rw [if_neg (by simp), hTop]
        exact ⟨rfl, List.cons_ne_nil _ _, nested, rfl, readBody_closer_nested own nested top rest⟩
      · rename_i hOther
        exact readBody_unbalanced own (top :: nested) hOther rest

/-- One turn is one step of the reading. -/
theorem advances_turn (own : Bracket) (nested : List Bracket) (text : List Char) :
    (turn (nested ++ [own]) text).Advances own nested text := by
  cases text with
  | nil => exact readBody.eq_1 own nested
  | cons c rest =>
      have hBody := readBody_cons own nested c rest
      rw [turn]
      split
      · rename_i hQuote
        rw [if_pos hQuote] at hBody
        exact ⟨congrArg (c :: ·) (Literal.skip_append c rest), List.cons_ne_nil _ _, nested, rfl,
          hBody⟩
      rename_i hQuote
      rw [if_neg hQuote] at hBody
      split
      · rename_i hLine
        rw [if_pos hLine] at hBody
        exact ⟨congrArg (c :: ·) (Text.sourceLine_append_afterSourceLine rest),
          List.cons_ne_nil _ _, nested, rfl, hBody⟩
      rename_i hLine
      rw [if_neg hLine] at hBody
      split
      · rename_i hBlock
        rw [if_pos hBlock] at hBody
        split
        · rename_i inner after hSplit
          rw [hSplit] at hBody
          obtain ⟨rfl, hHead⟩ := hBlock
          obtain ⟨more, rfl⟩ := List.head?_eq_some_iff.mp hHead
          have hMore : more = inner ++ '*' :: '/' :: after := Comment.eq_append_of_splitBlock hSplit
          refine ⟨?_, List.cons_ne_nil _ _, nested, rfl, hBody⟩
          rw [hMore]
          simp
        · rename_i hSplit
          rw [hSplit] at hBody
          exact hBody
      rename_i hBlock
      rw [if_neg hBlock, atBracket.eq_def] at hBody
      split
      · rename_i bracket hOpener
        rw [hOpener] at hBody
        exact ⟨rfl, List.cons_ne_nil _ _, bracket :: nested, rfl, hBody⟩
      · rename_i bracket _ hCloser
        rw [Bracket.ofCloser?_eq_some.mp hCloser]
        exact advances_turnAtCloser own nested bracket rest
      · rename_i hOpener hCloser
        rw [hOpener, hCloser] at hBody
        exact ⟨rfl, List.cons_ne_nil _ _, nested, rfl, hBody⟩

namespace Reaches

/-- What every turn keeps: the text splits at the place that is reached, each turn has passed over
a character at least, and the own bracket lies at the bottom of the stack, above which stand the
brackets that the rest of the group is read with. -/
theorem invariant (hReaches : Reaches own text count stack passed rest) :
    passed ++ rest = text ∧ count ≤ passed.length ∧
      ∃ nested, stack = nested ++ [own] ∧
        readBody own [] text = (readBody own nested rest).after passed := by
  induction hReaches with
  | start => exact ⟨rfl, Nat.le_refl 0, [], rfl, rfl⟩
  | @turn count stack further passed rest more after _ hTurn ih =>
      obtain ⟨hText, hCount, nested, rfl, hBody⟩ := ih
      have hStep := advances_turn own nested rest
      rw [hTurn] at hStep
      obtain ⟨hRest, hMore, beyond, hStack, hFurther⟩ := hStep
      have hLength := List.length_pos_iff.mpr hMore
      refine ⟨?_, ?_, beyond, hStack, ?_⟩
      · rw [List.append_assoc, hRest, hText]
      · rw [List.length_append]
        omega
      · rw [hBody, hFurther, Body.after_after]

theorem stack_ne_nil (hReaches : Reaches own text count stack passed rest) : stack ≠ [] := by
  obtain ⟨-, -, nested, rfl, -⟩ := hReaches.invariant
  exact List.append_ne_nil_of_right_ne_nil nested (List.cons_ne_nil own [])

/-- What the next turn does. -/
theorem exists_advances (hReaches : Reaches own text count stack passed rest) :
    ∃ nested, readBody own [] text = (readBody own nested rest).after passed ∧
      (Group.turn stack rest).Advances own nested rest := by
  obtain ⟨-, -, nested, rfl, hBody⟩ := hReaches.invariant
  exact ⟨nested, hBody, advances_turn own nested rest⟩

theorem turn_ne_underflow (hReaches : Reaches own text count stack passed rest) :
    Group.turn stack rest ≠ .underflow := by
  obtain ⟨nested, -, hStep⟩ := hReaches.exists_advances
  intro hTurn
  rw [hTurn] at hStep
  exact hStep

/-- There are never more turns than characters. -/
theorem count_le (hReaches : Reaches own text count stack passed rest) : count ≤ text.length := by
  obtain ⟨rfl, hCount, -⟩ := hReaches.invariant
  rw [List.length_append]
  omega

/-- From each place that is reached, some later turn ends the group, and there the reading ends. -/
theorem exists_ends (hReaches : Reaches own text count stack passed rest) :
    ∃ count stack passed rest ending, Reaches own text count stack passed rest ∧
      Group.turn stack rest = .ends ending ∧ readBody own [] text = ⟨passed, ending⟩ := by
  generalize hLength : rest.length = length
  induction length using Nat.strongRecOn generalizing count stack passed rest with
  | ind length ih =>
      obtain ⟨nested, hBody, hStep⟩ := hReaches.exists_advances
      cases hTurn : Group.turn stack rest with
      | underflow => exact absurd hTurn hReaches.turn_ne_underflow
      | ends ending =>
          rw [hTurn] at hStep
          have hEnd : readBody own nested rest = ⟨[], ending⟩ := hStep
          rw [hEnd, Body.after, List.append_nil] at hBody
          exact ⟨count, stack, passed, rest, ending, hReaches, hTurn, hBody⟩
      | goesOn further more after =>
          rw [hTurn] at hStep
          obtain ⟨rfl, hMore, -⟩ := hStep
          have hPositive := List.length_pos_iff.mpr hMore
          rw [List.length_append] at hLength
          exact ih after.length (by omega) (.turn hReaches hTurn) rfl

end Reaches

/-- Reading a group is going on turn by turn from its own bracket until a turn ends it. -/
theorem exists_reaches (own : Bracket) (text : List Char) :
    ∃ count stack passed rest ending, Reaches own text count stack passed rest ∧
      turn stack rest = .ends ending ∧ readBody own [] text = ⟨passed, ending⟩ :=
  Reaches.start.exists_ends

end FlatSyntax.Group
