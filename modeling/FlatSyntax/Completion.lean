import FlatSyntax.SymbolTable
import FlatSyntax.Text.Lines

/-!
Completion: the declared names that start with what the user has typed.
-/

namespace FlatSyntax

/-- What is offered for one name. -/
structure CompletionItem where
  label : String
  detail : String
  kind : SymbolKind
deriving DecidableEq, Repr

namespace CompletionItem

/-- The kind and line of a declaration and the first line of its documentation. -/
def detailOf (symbol : Symbol) : String :=
  let summary := Text.firstTrimmedLine symbol.doc.toList
  symbol.kind.word ++ " (line " ++ toString symbol.position.line ++ ")" ++
    if summary.isEmpty then "" else ": " ++ String.ofList summary

def ofSymbol (symbol : Symbol) : CompletionItem :=
  { label := symbol.name, detail := detailOf symbol, kind := symbol.kind }

end CompletionItem

/-- What a user may type to ask for completion. -/
def completionTriggers : List String := ["::"]

/-- The first declaration of each name, in order. -/
def firstOfEachName : List Symbol → List Symbol
  | [] => []
  | symbol :: more => symbol :: (firstOfEachName more).filter (·.name != symbol.name)

/-- Offer every declared name that starts with the given text once, in code point order. A name that
is declared more than once is described by its first declaration. -/
def complete (symbols : List Symbol) (typed : String) : List CompletionItem :=
  let candidates := symbols.filter fun symbol => typed.toList.isPrefixOf symbol.name.toList
  ((firstOfEachName candidates).map .ofSymbol).mergeSort fun a b => decide (a.label ≤ b.label)

end FlatSyntax
