import FlatSyntax.Parser.IncludeForm
import FlatSyntax.Parser.Pattern
import FlatSyntax.SymbolTable

/-!
Forms of constructs. A form is recognized by the tokens at its front; it says how many tokens the
construct takes, which node it becomes and what it declares. The forms overlap, and the first one in
the list `Form.all` whose trigger fits wins.
-/

namespace FlatSyntax

inductive Form where
  /-- Any token, a colon and any token; a form only where pairs are asked for. -/
  | jsonPair
  | reference
  | structDecl
  | namespaceDecl
  | implBlock
  | headBlock
  | bodyBlock
  | voidFunction
  | function
  | structCall
  | structVar
  | plainVariable
  | genericVariable
  | pointer
  | directive
  | codeBlock
  /-- The marker before a square group. The group is shown in this node and is then read again on
  its own. -/
  | staticExecution
  | loneMarker
  /-- Any token by itself. -/
  | other
deriving DecidableEq, Repr

/-- What is recognized at one place of a token list. -/
structure Construct where
  node : Node
  /-- How many tokens it takes. -/
  width : Int
  /-- The declaration that it makes. -/
  symbol : Option Symbol := none
  /-- The include directive without a known form that it shows. -/
  oddInclude : Option String := none
deriving DecidableEq, Repr

namespace Form

/-- All forms, those that win first. -/
def all : List Form :=
  [jsonPair, reference, structDecl, namespaceDecl, implBlock, headBlock, bodyBlock, voidFunction,
   function, structCall, structVar, plainVariable, genericVariable, pointer, directive, codeBlock,
   staticExecution, loneMarker, other]

/-- What the first tokens of a construct of this form look like. -/
def trigger : Form → Pattern
  | jsonPair => [.any, .value ":", .any]
  | reference => [.value "&", .kind .identifier]
  | structDecl => [.value "struct", .kind .identifier, .kind .curly]
  | namespaceDecl => [.value "namespace", .kind .identifier, .kind .curly]
  | implBlock => [.value "impl", .kind .identifier, .kind .curly]
  | headBlock => [.kind .headKeyword, .kind .round, .kind .curly]
  | bodyBlock => [.kind .bodyKeyword, .kind .curly]
  | voidFunction =>
      [.exactly .identifier "void", .kind .identifier, .kind .round, .kind .curly]
  | function => [.kind .identifier, .kind .identifier, .kind .round, .kind .curly]
  | structCall => [.kind .identifier, .kind .curly]
  | structVar => [.kind .identifier, .kind .identifier, .kind .curly]
  | plainVariable => [.kind .identifier, .kind .identifier]
  | genericVariable => [.kind .identifier, .kind .angle, .kind .identifier]
  | pointer => [.kind .identifier, .value "*", .kind .identifier]
  | directive => [.kind .directive]
  | codeBlock => [.exactly .keyword "cb", .kind .curly]
  | staticExecution => [.kind .staticMarker, .kind .square]
  | loneMarker => [.kind .staticMarker]
  | other => [.any]

/-- How many tokens a construct of this form takes: those of its trigger, but the square group after
a marker is left for the next construct. -/
def width : Form → Nat
  | staticExecution => 1
  | form => form.trigger.length

/-- The kind of node, where it does not depend on the tokens. -/
def nodeKind : Form → NodeKind
  | jsonPair => .jsonPair
  | reference => .reference
  | structDecl => .structDecl
  | namespaceDecl => .namespaceDecl
  | implBlock => .implBlock
  | headBlock => .headBlock
  | bodyBlock => .bodyBlock
  | voidFunction => .voidFunctionDecl
  | function => .functionDecl
  | structCall => .structCall
  | structVar => .structVar
  | plainVariable => .variableDecl
  | genericVariable => .variableDecl
  | pointer => .pointerDecl
  | directive => .includePath
  | codeBlock => .codeBlock
  | staticExecution => .staticExecution
  | loneMarker => .other
  | other => .other

/-- The tokens of a window that the node shows as they are. -/
def captured : Form → List Token → List Token
  | jsonPair, key :: _ :: value :: _ => [key, value]
  | reference, _ :: name :: _ => [name]
  | structDecl, _ :: name :: body :: _ => [name, body]
  | namespaceDecl, _ :: name :: body :: _ => [name, body]
  | implBlock, _ :: name :: body :: _ => [name, body]
  | headBlock, word :: condition :: body :: _ => [word, condition, body]
  | bodyBlock, word :: body :: _ => [word, body]
  | voidFunction, _ :: name :: parameters :: body :: _ => [name, parameters, body]
  | function, _ :: name :: parameters :: body :: _ => [name, parameters, body]
  | structCall, _ :: fields :: _ => [fields]
  | structVar, _ :: name :: fields :: _ => [name, fields]
  | plainVariable, _ :: name :: _ => [name]
  | genericVariable, _ :: arguments :: name :: _ =>
      [{ name with value := name.value ++ "<" ++ arguments.value ++ ">" }]
  | pointer, _ :: _ :: name :: _ => [name]
  | directive, token :: _ => [token]
  | codeBlock, _ :: body :: _ => [body]
  | staticExecution, _ :: group :: _ => [group]
  | other, token :: _ => [token]
  | _, _ => []

/-- The kind of a declaration of this form and the token that it is registered by. A variable with
generic arguments is registered by these. -/
def declared : Form → List Token → Option (SymbolKind × Token)
  | structDecl, _ :: name :: _ => some (.struct, name)
  | namespaceDecl, _ :: name :: _ => some (.scope, name)
  | voidFunction, _ :: name :: _ => some (.function, name)
  | function, _ :: name :: _ => some (.function, name)
  | structVar, _ :: name :: _ => some (.binding, name)
  | plainVariable, _ :: name :: _ => some (.binding, name)
  | genericVariable, _ :: arguments :: _ => some (.binding, arguments)
  | pointer, _ :: _ :: name :: _ => some (.binding, name)
  | _, _ => none

/-- The documentation that the token before a construct gives. -/
def docOf : Option Token → String
  | some token => if token.kind = .comment then token.value else ""
  | none => ""

/-- The construct of an include directive. -/
def includeConstruct (token : Token) : Construct :=
  match IncludeForm.classify token.value.toList with
  | some (form, path) =>
      { node :=
          { kind := form.nodeKind,
            tokens := [{ token with kind := .string, value := String.ofList path }] },
        width := 1 }
  | none =>
      { node := { kind := .includePath, tokens := [token] }, width := 1,
        oddInclude := some token.value }

/-- The construct of this form at the front of a window, given the token before the window. -/
def construct (form : Form) (previous : Option Token) (window : List Token) : Construct :=
  match form, window with
  | directive, token :: _ => includeConstruct token
  | form, window =>
      { node := { kind := form.nodeKind, tokens := form.captured window },
        width := form.width,
        symbol := (form.declared window).map fun (kind, token) =>
          { kind, name := token.value, position := token.position, doc := docOf previous } }

/-- Whether a form may be recognized. -/
def enabled (jsonMode : Bool) (form : Form) : Bool :=
  jsonMode || form != jsonPair

/-- The form of the construct at the front of a window. An empty window has none. -/
def ofWindow? (jsonMode : Bool) (window : List Token) : Option Form :=
  all.find? fun form => form.enabled jsonMode && form.trigger.fits window

theorem mem_all (form : Form) : form ∈ all := by cases form <;> decide

theorem one_le_width (form : Form) : 1 ≤ form.width := by cases form <;> decide

theorem width_le_trigger_length (form : Form) : form.width ≤ form.trigger.length := by
  cases form <;> decide

end Form

end FlatSyntax
