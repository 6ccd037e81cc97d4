import FlatSyntax.Token

/-!
The three kinds of brackets that enclose a group.
-/

namespace FlatSyntax

inductive Bracket where
  | round
  | curly
  | square
deriving DecidableEq, Repr

namespace Bracket

def opener : Bracket → Char
  | round => '('
  | curly => '\x7b'
  | square => '['

def closer : Bracket → Char
  | round => ')'
  | curly => '\x7d'
  | square => ']'

/-- The kind of the token that a group in these brackets becomes. -/
def kind : Bracket → TokenKind
  | round => .round
  | curly => .curly
  | square => .square

def all : List Bracket := [round, curly, square]

def ofOpener? (c : Char) : Option Bracket :=
  all.find? (·.opener == c)

def ofCloser? (c : Char) : Option Bracket :=
  all.find? (·.closer == c)

theorem ofOpener?_eq_some {c : Char} {bracket : Bracket} :
    ofOpener? c = some bracket ↔ c = bracket.opener := by
  constructor
  · intro hFound
    have hOpener := List.find?_some hFound
    exact (beq_iff_eq.mp hOpener).symm
  · rintro rfl
    cases bracket <;> decide

theorem ofCloser?_eq_some {c : Char} {bracket : Bracket} :
    ofCloser? c = some bracket ↔ c = bracket.closer := by
  constructor
  · intro hFound
    have hCloser := List.find?_some hFound
    exact (beq_iff_eq.mp hCloser).symm
  · rintro rfl
    cases bracket <;> decide

end Bracket

end FlatSyntax
