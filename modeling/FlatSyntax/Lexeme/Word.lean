import FlatSyntax.Lexeme.Basic

/-!
Words: names and reserved words. Only the ASCII letters, the digits and the underscore form words.
-/

namespace FlatSyntax.Word

def isStart (c : Char) : Bool :=
  c.isAlpha || c == '_'

def isPart (c : Char) : Bool :=
  c.isAlphanum || c == '_'

/-- The reserved words with the kinds of token that they become. -/
def reserved : List (String × TokenKind) :=
  [("if", .headKeyword), ("elif", .headKeyword), ("while", .headKeyword), ("for", .headKeyword),
   ("switch", .headKeyword), ("match", .headKeyword),
   ("else", .bodyKeyword), ("loop", .bodyKeyword), ("do", .bodyKeyword), ("defer", .bodyKeyword),
   ("unsafe", .bodyKeyword),
   ("cb", .keyword), ("struct", .keyword), ("namespace", .keyword), ("impl", .keyword),
   ("return", .keyword), ("break", .keyword), ("continue", .keyword), ("mut", .keyword),
   ("const", .keyword), ("pub", .keyword), ("use", .keyword)]

/-- The kind of token that a word becomes. -/
def kind (word : List Char) : TokenKind :=
  (reserved.lookup (String.ofList word)).getD .identifier

/-- Read the longest word that starts with the given character. -/
def read (first : Char) (rest : List Char) : Reading :=
  let more := rest.takeWhile isPart
  .lexeme (.verbatim (kind (first :: more)) first more) (rest.dropWhile isPart)

@[simp] theorem source_read (first : Char) (rest : List Char) :
    (read first rest).source = first :: rest := by
  simp [read, Reading.source, Lexeme.verbatim, Lexeme.raw]

end FlatSyntax.Word
