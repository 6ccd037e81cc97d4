import FlatSyntax.Log
import FlatSyntax.Diagnostic
import FlatSyntax.Parser.Walk

/-!
Parsers: a token buffer with a cursor and the symbol table that declarations are registered in. A
buffer may grow between parses; each parse goes on from the cursor, while documentation is looked up
in the whole buffer.
-/

namespace FlatSyntax

namespace Construct

/-- What the log says about a construct: its declaration, or its unknown include form. -/
def logRows (construct : Construct) : List LogRow :=
  (construct.symbol.map LogRow.registered).toList ++
    (construct.oddInclude.map LogRow.unknownInclude).toList

end Construct

structure Parser where
  tokens : List Token
  rules : RuleSet := {}
  cursor : Nat := 0
  table : SymbolTable := .empty
deriving DecidableEq, Repr

/-- The outcome of one parse. The nodes are lost where a rule took no token, but what was registered
before that stays registered. -/
structure Parsed where
  nodes : Except Diagnostic (List Node)
  constructs : List Construct
  log : List LogRow
  /-- The parser afterwards. -/
  parser : Parser

namespace Parser

/-- The token before an index. -/
def before (parser : Parser) (index : Nat) : Option Token :=
  if index = 0 then none else parser.tokens[index - 1]?

/-- The documentation of a construct that starts at an index. There is none beyond the buffer. -/
def docBefore? (parser : Parser) (index : Nat) : Option String :=
  if index ≤ parser.tokens.length then some (Form.docOf (parser.before index)) else none

/-- Append tokens to the buffer. -/
def extend (parser : Parser) (tokens : List Token) : Parser :=
  { parser with tokens := parser.tokens ++ tokens }

/-- Pin a rule in front of all others. -/
def pin (parser : Parser) (rule : PinnedRule) : Parser :=
  { parser with rules := { parser.rules with pinned := rule :: parser.rules.pinned } }

def setJsonMode (parser : Parser) (jsonMode : Bool) : Parser :=
  { parser with rules := { parser.rules with jsonMode } }

/-- The construct at an index of the buffer, without moving the cursor. -/
def construct? (parser : Parser) (index : Nat) : Option Construct :=
  parser.rules.construct? (parser.before index) index (parser.tokens.drop index)

/-- Register what a construct declares. -/
def register (parser : Parser) (construct : Construct) : Parser :=
  { parser with table := parser.table.registerAll construct.symbol.toList }

/-- The walk from the cursor to the end of the buffer. -/
def walk (parser : Parser) : Walk :=
  parser.rules.walk (parser.before parser.cursor) parser.cursor (parser.tokens.drop parser.cursor)

/-- The diagnostic of a rule that took no token. -/
def stallDiagnostic (parser : Parser) (cursor : Nat) (kind : NodeKind) : Diagnostic :=
  { problem :=
      .parserStalled ("rule for " ++ kind.name ++ " consumed no tokens") cursor
        parser.tokens.length }

/-- Recognize everything from the cursor to the end of the buffer. -/
def parse (parser : Parser) : Parsed :=
  let walk := parser.walk
  let symbols := walk.constructs.filterMap (·.symbol)
  let nodes := walk.constructs.map (·.node)
  let rows := walk.constructs.flatMap (·.logRows)
  let after :=
    { parser with cursor := walk.ending.cursor, table := parser.table.registerAll symbols }
  match walk.ending with
  | .finished _ =>
      { nodes := .ok nodes, constructs := walk.constructs, parser := after,
        log := rows ++
          [.parsed parser.tokens.length nodes.length (nodes.countP (·.isDeclaration))] }
  | .stalled cursor kind =>
      { nodes := .error (parser.stallDiagnostic cursor kind), constructs := walk.constructs,
        parser := after, log := rows }

end Parser

end FlatSyntax
