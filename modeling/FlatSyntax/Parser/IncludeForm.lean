import FlatSyntax.Lexeme.Directive
import FlatSyntax.Node

/-!
Include directives: the marker, any number of spaces and a path between angle brackets or quotes.
What follows the path is not looked at; a directive of any other shape has no form.
-/

namespace FlatSyntax

inductive IncludeForm where
  /-- A path between angle brackets. -/
  | bracketed
  /-- A path between double quotes. -/
  | quoted
deriving DecidableEq, Repr

namespace IncludeForm

def opener : IncludeForm → Char
  | bracketed => '<'
  | quoted => '"'

def closer : IncludeForm → Char
  | bracketed => '>'
  | quoted => '"'

/-- The kind of node that a directive of this form becomes. -/
def nodeKind : IncludeForm → NodeKind
  | bracketed => .includePath
  | quoted => .includeLocal

/-- The text before the first closing character, if no line feed comes before that. -/
def pathBefore (closer : Char) : List Char → Option (List Char)
  | [] => none
  | c :: rest =>
      if c = closer then some []
      else if c = '\n' then none
      else (pathBefore closer rest).map (c :: ·)

/-- The path of a directive in this form, if it has this form. -/
def path? (form : IncludeForm) (directive : List Char) : Option (List Char) :=
  if Directive.marker.isPrefixOf directive then
    match (directive.drop Directive.marker.length).dropWhile (· == ' ') with
    | [] => none
    | c :: rest => if c = form.opener then pathBefore form.closer rest else none
  else none

/-- The form of a directive with its path. -/
def classify (directive : List Char) : Option (IncludeForm × List Char) :=
  match bracketed.path? directive, quoted.path? directive with
  | some path, _ => some (bracketed, path)
  | none, some path => some (quoted, path)
  | none, none => none

end IncludeForm

end FlatSyntax
