import FlatSyntax.Text.Terminal
import FlatSyntax.Token

/-!
Nodes: the constructs that the parser recognizes. Nodes form a flat list; each has a kind and the
tokens that matter for it, and no node holds another one.
-/

namespace FlatSyntax

inductive NodeKind where
  | reference
  | functionDecl
  | structDecl
  /-- A type name with a curly group of fields. -/
  | structCall
  /-- A type name, a name and a curly group of fields. -/
  | structVar
  | voidFunctionDecl
  | namespaceDecl
  | variableDecl
  | pointerDecl
  /-- A declaration of a variable that may change; no rule builds it. -/
  | mutVariableDecl
  /-- A reserved word with a round and a curly group. -/
  | headBlock
  /-- A reserved word with a curly group. -/
  | bodyBlock
  | includePath
  | includeLocal
  | codeBlock
  /-- A key and its value. -/
  | jsonPair
  | implBlock
  | staticExecution
  /-- Whatever no other kind takes. -/
  | other
deriving DecidableEq, Repr

namespace NodeKind

/-- All kinds in their listed order. -/
def all : List NodeKind :=
  [reference, functionDecl, structDecl, structCall, structVar, voidFunctionDecl, namespaceDecl,
   variableDecl, pointerDecl, mutVariableDecl, headBlock, bodyBlock, includePath, includeLocal,
   codeBlock, jsonPair, implBlock, staticExecution, other]

/-- The name that listings show. -/
def name : NodeKind → String
  | reference => "REF"
  | functionDecl => "FUNCTION_DECLARATION"
  | structDecl => "STRUCT_DECLARATION"
  | structCall => "STRUCT_CALL"
  | structVar => "STRUCT_VAR"
  | voidFunctionDecl => "VOID_FUNCTION_DECLARATION"
  | namespaceDecl => "NAMESPACE"
  | variableDecl => "VARIABLE_DECLARATION"
  | pointerDecl => "POINTER_DECLARATION"
  | mutVariableDecl => "MUT_VARIABLE_DECLARATION"
  | headBlock => "STATE3"
  | bodyBlock => "STATE2"
  | includePath => "INCLUDE"
  | includeLocal => "INCLUDE_LOCAL"
  | codeBlock => "CODE_BLOCK"
  | jsonPair => "JSON"
  | implBlock => "IMPL"
  | staticExecution => "STATIC_EXECUTION"
  | other => "OTHER"

def ofName? (name : String) : Option NodeKind :=
  all.find? (·.name == name)

theorem mem_all (kind : NodeKind) : kind ∈ all := by cases kind <;> decide

theorem ofName?_name (kind : NodeKind) : ofName? kind.name = some kind := by
  cases kind <;> decide

/-- The kinds that are listed as declarations. A variable with a group of fields is registered as a
symbol but is not among them. -/
def isDeclaration : NodeKind → Bool
  | functionDecl | voidFunctionDecl | namespaceDecl | variableDecl | pointerDecl
  | mutVariableDecl | structDecl => true
  | _ => false

end NodeKind

structure Node where
  kind : NodeKind := .other
  tokens : List Token := []
deriving DecidableEq, Repr

namespace Node

def isDeclaration (node : Node) : Bool :=
  node.kind.isDeclaration

/-- The nodes that are declarations, in their order. -/
def declarations (nodes : List Node) : List Node :=
  nodes.filter isDeclaration

/-- The lines for the tokens of a node, with a comma after each but the last. -/
def tokenLines : List Token → List String
  | [] => []
  | [token] => ["    " ++ token.render]
  | token :: more => ("    " ++ token.render ++ ",") :: tokenLines more

/-- The lines of a node's listing. With color the kind is styled for a terminal. -/
def listing (color : Bool) (node : Node) : List String :=
  let heading := node.kind.name ++ ":"
  ((if color then Text.Terminal.cyan heading else heading) ++ " [") :: tokenLines node.tokens ++
    ["]"]

def render (color : Bool) (node : Node) : String :=
  "\n".intercalate (node.listing color)

/-- The listing of a list of nodes, one below the other. -/
def dump (color : Bool) (nodes : List Node) : String :=
  "\n".intercalate (nodes.map (render color))

end Node

end FlatSyntax
