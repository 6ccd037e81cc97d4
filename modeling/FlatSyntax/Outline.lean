import FlatSyntax.SymbolTable
import FlatSyntax.Text.Column
import FlatSyntax.Text.Lines

/-!
Outlines: the declarations of a source text in reading order, each with the first full line of its
documentation.
-/

namespace FlatSyntax

structure OutlineEntry where
  kind : SymbolKind
  name : String
  position : Position
  summary : String := ""
deriving DecidableEq, Repr

namespace OutlineEntry

def ofSymbol (symbol : Symbol) : OutlineEntry :=
  { kind := symbol.kind, name := symbol.name, position := symbol.position,
    summary := String.ofList (Text.firstFullLine symbol.doc.toList) }

/-- The line that shows an entry. -/
def text (entry : OutlineEntry) : String :=
  entry.position.text ++ "  " ++ Text.padRight 9 entry.kind.word ++ " " ++ entry.name ++
    if entry.summary.isEmpty then "" else "  - " ++ entry.summary

end OutlineEntry

/-- The outline of some declarations. Declarations at the same position keep their order. -/
def outline (symbols : List Symbol) : List OutlineEntry :=
  (symbols.map .ofSymbol).mergeSort fun a b => a.position.notAfter b.position

end FlatSyntax
