import FlatSyntax.Diagnostic
import FlatSyntax.Token

/-!
Lexemes: what is read at one place of a source text, seen apart from its position. A reading either
yields a lexeme together with the text after it, or a fault together with the place where reading
stopped.
-/

namespace FlatSyntax

/-- A token before it has a position, with the source characters that spell it, of which there is
always a first one. -/
structure Lexeme where
  kind : TokenKind
  value : List Char
  first : Char
  more : List Char
deriving DecidableEq, Repr

namespace Lexeme

/-- The source characters that spell a lexeme. -/
def raw (lexeme : Lexeme) : List Char :=
  lexeme.first :: lexeme.more

/-- A lexeme whose value is its spelling. -/
def verbatim (kind : TokenKind) (first : Char) (more : List Char) : Lexeme :=
  { kind, value := first :: more, first, more }

/-- Whether generic arguments may follow directly. -/
def isWord (lexeme : Lexeme) : Bool :=
  lexeme.kind == .identifier || lexeme.kind == .keyword || lexeme.kind == .headKeyword ||
    lexeme.kind == .bodyKeyword

end Lexeme

/-- The outcome of reading at one place. The text at that place is always the concatenation of the
parts that the outcome holds. -/
inductive Reading where
  | lexeme (found : Lexeme) (rest : List Char)
  /-- The problem lies after the `skipped` text; reading stopped after the `covered` text. -/
  | fault (problem : Problem) (skipped covered rest : List Char)
deriving DecidableEq, Repr

/-- The text that a reading was made of. -/
def Reading.source : Reading → List Char
  | .lexeme found rest => found.raw ++ rest
  | .fault _ skipped covered rest => skipped ++ covered ++ rest

end FlatSyntax
