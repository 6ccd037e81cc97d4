import FlatSyntax.Lexeme.Basic
import FlatSyntax.Text.Printable

/-!
Symbols: operators of two characters, and every other printable character by itself.
-/

namespace FlatSyntax.Operator

/-- The operators that are written with two characters. -/
def pairs : List (Char × Char) :=
  [(':', ':'), ('-', '>'), ('=', '='), ('!', '='), ('<', '='), ('>', '='), ('&', '&'), ('|', '|'),
   ('+', '='), ('-', '=')]

/-- Read a symbol that starts with the given character. -/
def read (first : Char) (rest : List Char) : Reading :=
  match rest with
  | second :: after =>
      if pairs.contains (first, second) then
        .lexeme (.verbatim .symbol first [second]) after
      else single first rest
  | [] => single first rest
where
  /-- Read a symbol of one character. -/
  single (c : Char) (after : List Char) : Reading :=
    if Text.isPrintable c then .lexeme (.verbatim .symbol c []) after
    else .fault (.invalidCharacter c) [] [c] after

@[simp] theorem source_single (c : Char) (after : List Char) :
    (read.single c after).source = c :: after := by
  unfold read.single
  split <;> rfl

@[simp] theorem source_read (first : Char) (rest : List Char) :
    (read first rest).source = first :: rest := by
  unfold read
  split
  · split
    · rfl
    · simp
  · simp

end FlatSyntax.Operator
