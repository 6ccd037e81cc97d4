/-!
Places in source text: the position of a single character and the location of a span on one line.
Lines and columns of scanned text count from 1, but any integers may be given.
-/

namespace FlatSyntax

structure Position where
  line : Int
  column : Int
deriving DecidableEq, Repr

namespace Position

def text (position : Position) : String :=
  toString position.line ++ ":" ++ toString position.column

/-- Reading order: by line, within a line by column. A position is not after itself. -/
def notAfter (a b : Position) : Bool :=
  decide (a.line < b.line) || (a.line == b.line && decide (a.column ≤ b.column))

end Position

/-- A span of characters on one line of a file. -/
structure Location where
  file : String
  line : Int
  column : Int
  length : Int
deriving DecidableEq, Repr

namespace Location

def text (location : Location) : String :=
  location.file ++ ":" ++ toString location.line ++ ":" ++ toString location.column

/-- A marker line for the span, to be written below the source line: a caret below the first
character and a tilde below each further one. -/
def underline (location : Location) : String :=
  String.ofList (List.replicate (location.column - 1).toNat ' ' ++
    '^' :: List.replicate (location.length - 1).toNat '~')

end Location

end FlatSyntax
