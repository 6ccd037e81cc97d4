import FlatSyntax.Source.Location
import FlatSyntax.Text.Quoted

/-!
Tokens of a source text. A bracket group is a single token whose value is the text between the
brackets, so the token list is flat.
-/

namespace FlatSyntax

inductive TokenKind where
  | identifier
  /-- A reserved word without a fixed continuation. -/
  | keyword
  /-- A reserved word that takes a round and a curly group. -/
  | headKeyword
  /-- A reserved word that takes a curly group. -/
  | bodyKeyword
  | curly
  | round
  | square
  /-- Generic arguments between angle brackets, directly after a word. -/
  | angle
  | directive
  /-- The marker before a square group that is executed statically. -/
  | staticMarker
  | comment
  | string
  | number
  | symbol
deriving DecidableEq, Repr

namespace TokenKind

/-- All kinds in their listed order. -/
def all : List TokenKind :=
  [identifier, keyword, headKeyword, bodyKeyword, curly, round, square, angle, directive,
   staticMarker, comment, string, number, symbol]

/-- The name that listings show. -/
def name : TokenKind → String
  | identifier => "IDENTIFIER"
  | keyword => "KEYWORD"
  | headKeyword => "KEYWORD1"
  | bodyKeyword => "KEYWORD2"
  | curly => "CURLY"
  | round => "ROUND"
  | square => "SQUARE"
  | angle => "ANGLE"
  | directive => "INCLUDE"
  | staticMarker => "STATIC_EXECUTION"
  | comment => "COMMENT"
  | string => "STRING"
  | number => "NUMBER"
  | symbol => "SYMBOL"

def ofName? (name : String) : Option TokenKind :=
  all.find? (·.name == name)

theorem mem_all (kind : TokenKind) : kind ∈ all := by cases kind <;> decide

theorem ofName?_name (kind : TokenKind) : ofName? kind.name = some kind := by
  cases kind <;> decide

/-- The kinds whose value is the text between a pair of brackets. -/
def isGroup (kind : TokenKind) : Bool :=
  kind == curly || kind == round || kind == square || kind == angle

end TokenKind

/-- A token: its kind, its value and the position of its first character. -/
structure Token where
  kind : TokenKind
  value : String
  line : Int := 0
  column : Int := 0
deriving DecidableEq, Repr

namespace Token

def position (token : Token) : Position :=
  { line := token.line, column := token.column }

/-- The form in which listings show a token. -/
def render (token : Token) : String :=
  "Token(" ++ token.kind.name ++ ", " ++ Text.quoted token.value ++ ", " ++ token.position.text ++
    ")"

end Token

end FlatSyntax
