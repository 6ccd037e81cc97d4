import FlatSyntax.Proofs.Parser.Recognition

/-! The nodes of a parser as a cover of its buffer. Each node stands for a window of its own, and
the windows follow one another without a gap, however the parser is used. -/
namespace FlatSyntax

/-- A node that shows some of the tokens of its window and nothing else. No static execution and no
variable with generic arguments is of this sort, and an include directive only where its form is
unknown. -/
structure Node.ShowsPart (node : Node) (window : List Token) : Prop where
  hTokens : node.tokens.Sublist window
  hStatic : node.kind ≠ .staticExecution
  hVariable : node.kind = .variableDecl → window.length = 2
  hInclude : node.kind = .includePath ∨ node.kind = .includeLocal →
    ∃ token, window = [token] ∧ IncludeForm.classify token.value.toList = none

/-- What a node shows, given its window and the token that follows it. -/
inductive Node.Shows : Node → List Token → Option Token → Prop where
  | part {node : Node} {window : List Token} {following : Option Token}
      (hPart : node.ShowsPart window) : Shows node window following
  /-- The group after a marker, which is not in the window. -/
  | static {marker group : Token} (hMarker : marker.kind = .staticMarker)
      (hGroup : group.kind = .square) :
      Shows { kind := .staticExecution, tokens := [group] } [marker] (some group)
  /-- The name with the generic arguments. -/
  | generic {head arguments name : Token} {following : Option Token}
      (hHead : head.kind = .identifier) (hArguments : arguments.kind = .angle)
      (hName : name.kind = .identifier) :
      Shows
        { kind := .variableDecl,
          tokens := [{ name with value := name.value ++ "<" ++ arguments.value ++ ">" }] }
        [head, arguments, name] following
  /-- The path of an include directive, as a literal where the directive stands. -/
  | path {token : Token} {form : IncludeForm} {path : List Char} {following : Option Token}
      (hToken : token.kind = .directive)
      (hPath : IncludeForm.classify token.value.toList = some (form, path)) :
      Shows
        { kind := form.nodeKind,
          tokens := [⟨.string, String.ofList path, token.line, token.column⟩] }
        [token] following

/-- Nodes that cover a token list up to `rest`: their windows, of one to four tokens each, lie one
after the other from its start. -/
inductive Covers : List Node → List Token → List Token → Prop where
  | nil (rest : List Token) : Covers [] rest rest
  | cons {node : Node} {nodes : List Node} {window after rest : List Token}
      (hOne : 1 ≤ window.length) (hFour : window.length ≤ 4)
      (hShows : node.Shows window after.head?) (hMore : Covers nodes after rest) :
      Covers (node :: nodes) (window ++ after) rest

/-- More tokens at the end do not change what a node shows. -/
theorem Node.Shows.append {node : Node} {window after : List Token}
    (hShows : node.Shows window after.head?) (more : List Token) :
    node.Shows window (after ++ more).head? := by
  generalize hFollowing : after.head? = following at hShows
  cases hShows with
  | part hPart => exact .part hPart
  | static hMarker hGroup =>
      obtain ⟨tail, rfl⟩ := List.head?_eq_some_iff.mp hFollowing
      exact .static hMarker hGroup
  | generic hHead hArguments hName => exact .generic hHead hArguments hName
  | path hToken hPath => exact .path hToken hPath

namespace Covers

variable {nodes : List Node} {tokens rest : List Token}

theorem extend (hCovers : Covers nodes tokens rest) (more : List Token) :
    Covers nodes (tokens ++ more) (rest ++ more) := by
  induction hCovers with
  | nil rest => exact .nil (rest ++ more)
  | cons hOne hFour hShows _ ih =>
      rw [List.append_assoc]
      exact .cons hOne hFour (hShows.append more) ih

theorem append (hCovers : Covers nodes tokens rest) {more : List Node} {beyond : List Token}
    (hMore : Covers more rest beyond) : Covers (nodes ++ more) tokens beyond := by
  induction hCovers with
  | nil rest => exact hMore
  | cons hOne hFour hShows _ ih => exact .cons hOne hFour hShows (ih hMore)

/-- There are never more nodes than tokens that they cover. -/
theorem length_le (hCovers : Covers nodes tokens rest) :
    nodes.length + rest.length ≤ tokens.length := by
  induction hCovers with
  | nil rest => simp
  | cons hOne _ _ _ ih =>
      rw [List.length_append, List.length_cons]
      omega

end Covers

namespace Form

/-- A form shows tokens of its own window, but for the two that show more. -/
theorem captured_sublist {form : Form} {window : List Token}
    (hFits : form.trigger.fits window = true) (hStatic : form ≠ staticExecution)
    (hVariable : form ≠ genericVariable) :
    (form.captured window).Sublist (window.take form.width) := by
  cases form with
  | staticExecution => exact absurd rfl hStatic
  | genericVariable => exact absurd rfl hVariable
  | loneMarker => exact List.nil_sublist _
  | directive | other =>
      obtain ⟨token, more, rfl, -, -⟩ := Pattern.fits_cons_iff.mp hFits
      exact List.Sublist.refl [token]
  | bodyBlock =>
      obtain ⟨word, body, more, rfl, -, -, -⟩ := Pattern.exists_two_of_fits hFits
      exact List.Sublist.refl [word, body]
  | reference | structCall | plainVariable | codeBlock =>
      obtain ⟨head, last, more, rfl, -, -, -⟩ := Pattern.exists_two_of_fits hFits
      exact List.sublist_cons_self head [last]
  | headBlock =>
      obtain ⟨word, condition, body, more, rfl, -, -, -, -⟩ := Pattern.exists_three_of_fits hFits
      exact List.Sublist.refl [word, condition, body]
  | structDecl | namespaceDecl | implBlock | structVar =>
      obtain ⟨head, name, body, more, rfl, -, -, -, -⟩ := Pattern.exists_three_of_fits hFits
      exact List.sublist_cons_self head [name, body]
  | jsonPair =>
      obtain ⟨key, colon, value, more, rfl, -, -, -, -⟩ := Pattern.exists_three_of_fits hFits
      exact (List.sublist_cons_self colon [value]).cons_cons key
  | pointer =>
      obtain ⟨head, star, name, more, rfl, -, -, -, -⟩ := Pattern.exists_three_of_fits hFits
      exact (List.sublist_cons_self star [name]).cons head
  | voidFunction | function =>
      obtain ⟨head, name, parameters, _, rfl, -, -, -, hBody⟩ :=
        Pattern.exists_three_of_fits hFits
      obtain ⟨body, more, rfl, -, -⟩ := Pattern.fits_cons_iff.mp hBody
      exact List.sublist_cons_self head [name, parameters, body]

/-- The part of its window that a form shows where it shows no more. -/
theorem showsPart_of_fits {form : Form} {window : List Token}
    (hFits : form.trigger.fits window = true) (hStatic : form ≠ staticExecution)
    (hVariable : form ≠ genericVariable) (hInclude : form ≠ directive) :
    Node.ShowsPart { kind := form.nodeKind, tokens := form.captured window }
      (window.take form.width) where
  hTokens := captured_sublist hFits hStatic hVariable
  hStatic := by cases form <;> first | contradiction | (intro hKind; cases hKind)
  hVariable := by
    intro hKind
    have hLength := Pattern.length_le_of_fits hFits
    have hPlain : form = plainVariable := by
      cases form <;> first | rfl | contradiction
    subst hPlain
    exact List.length_take_of_le hLength
  hInclude := by
    intro hKind
    cases form <;> first | contradiction | (rcases hKind with hKind | hKind <;> cases hKind)

theorem shows_includeConstruct {token : Token} (hToken : token.kind = .directive)
    (following : Option Token) : (includeConstruct token).node.Shows [token] following := by
  unfold includeConstruct
  split
  · rename_i hPath
    exact .path hToken hPath
  · rename_i hPath
    exact .part
      { hTokens := List.Sublist.refl [token]
        hStatic := by rintro ⟨⟩
        hVariable := by rintro ⟨⟩
        hInclude := fun _ => ⟨token, rfl, hPath⟩ }

/-- What each form shows of a window that it fits. -/
theorem shows_construct {form : Form} {window : List Token}
    (hFits : form.trigger.fits window = true) (previous : Option Token) :
    (form.construct previous window).node.Shows (window.take form.width)
      (window.drop form.width).head? := by
  by_cases hStatic : form = staticExecution
  · subst hStatic
    obtain ⟨marker, group, more, rfl, hMarker, hGroup, -⟩ := Pattern.exists_two_of_fits hFits
    exact .static (eq_of_beq hMarker) (eq_of_beq hGroup)
  by_cases hVariable : form = genericVariable
  · subst hVariable
    obtain ⟨head, arguments, name, more, rfl, hHead, hArguments, hName, -⟩ :=
      Pattern.exists_three_of_fits hFits
    exact .generic (eq_of_beq hHead) (eq_of_beq hArguments) (eq_of_beq hName)
  by_cases hInclude : form = directive
  · subst hInclude
    obtain ⟨token, more, rfl, hToken, -⟩ := Pattern.fits_cons_iff.mp hFits
    exact shows_includeConstruct (eq_of_beq hToken) more.head?
  · have hNode : (form.construct previous window).node =
        { kind := form.nodeKind, tokens := form.captured window } := by
      unfold construct
      split
      · contradiction
      · rfl
    rw [hNode]
    exact .part (showsPart_of_fits hFits hStatic hVariable hInclude)

end Form

/-- A walk by the built-in forms covers its tokens to the end. -/
theorem RuleSet.covers_walk {rules : RuleSet} (hPinned : rules.pinned = [])
    (previous : Option Token) (index : Nat) (window : List Token) :
    Covers ((rules.walk previous index window).constructs.map (·.node)) window [] := by
  induction window using Form.induction_ofWindow? rules.jsonMode generalizing previous index with
  | hNil =>
      rw [walk]
      exact .nil []
  | hForm window form hForm ih =>
      have hWidth := Form.width_le_length_of_ofWindow? hForm
      have hWindow : (window.take form.width).length = form.width := List.length_take_of_le hWidth
      have hOne := Form.one_le_width form
      have hFour := Form.width_le_four form
      have hShows := Form.shows_construct (Form.fits_of_ofWindow? hForm) previous
      rw [← hWindow] at hOne hFour
      have hCovers := Covers.cons hOne hFour hShows
        (ih window[form.width - 1]? (index + form.width))
      rw [List.take_append_drop] at hCovers
      rw [walk_of_ofWindow? hPinned hForm]
      exact hCovers

namespace Parser

/-- What may be asked of a parser in the course of its use. -/
inductive Request where
  | parse
  | extend (tokens : List Token)
  | setJsonMode (jsonMode : Bool)

/-- Serve one request: the parse that it makes, if it makes one, and the parser afterwards. -/
def serve (parser : Parser) : Request → List Parsed × Parser
  | .parse => ([parser.parse], parser.parse.parser)
  | .extend tokens => ([], parser.extend tokens)
  | .setJsonMode jsonMode => ([], parser.setJsonMode jsonMode)

/-- Serve requests one after the other: all parses that they make, and the parser at the end. -/
def serveAll (parser : Parser) : List Request → List Parsed × Parser
  | [] => ([], parser)
  | request :: more =>
      let served := parser.serve request
      let further := served.2.serveAll more
      (served.1 ++ further.1, further.2)

/-- The nodes that parses return. A parse that fails returns none. -/
def nodesOf (parses : List Parsed) : List Node :=
  parses.flatMap fun parsed => parsed.nodes.toOption.getD []

/-- A parser with the built-in forms that has returned nodes which cover its buffer up to the
cursor. -/
structure Covered (parser : Parser) (nodes : List Node) : Prop where
  hPinned : parser.rules.pinned = []
  hCursor : parser.cursor ≤ parser.tokens.length
  hCovers : Covers nodes parser.tokens (parser.tokens.drop parser.cursor)

/-- A parse that did not fail and left nothing over, so that another one returns no node and leaves
the parser as it is. -/
structure Drained (parsed : Parsed) : Prop where
  hNodes : ∃ nodes, parsed.nodes = .ok nodes
  hCursor : parsed.parser.cursor = parsed.parser.tokens.length
  hAgain : parsed.parser.parse.nodes = .ok [] ∧ parsed.parser.parse.constructs = [] ∧
    parsed.parser.parse.parser = parsed.parser

theorem walk_of_cursor_eq_length {parser : Parser}
    (hCursor : parser.cursor = parser.tokens.length) :
    parser.walk = ⟨[], .finished parser.cursor⟩ := by
  rw [walk, hCursor, List.drop_length, RuleSet.walk]

/-- A parser whose cursor is at the end of the buffer has nothing to say. -/
theorem parse_of_cursor_eq_length {parser : Parser}
    (hCursor : parser.cursor = parser.tokens.length) :
    parser.parse.nodes = .ok [] ∧ parser.parse.constructs = [] ∧ parser.parse.parser = parser := by
  unfold parse
  rw [walk_of_cursor_eq_length hCursor]
  refine ⟨rfl, rfl, ?_⟩
  simp [WalkEnd.cursor, SymbolTable.registerAll]

variable {parser : Parser} {nodes : List Node}

theorem Covered.extend (hCovered : parser.Covered nodes) (tokens : List Token) :
    (parser.extend tokens).Covered nodes where
  hPinned := hCovered.hPinned
  hCursor := by
    have hCursor := hCovered.hCursor
    simp only [Parser.extend, List.length_append]
    omega
  hCovers := by
    have hCovers := hCovered.hCovers.extend tokens
    rw [← List.drop_append_of_le_length hCovered.hCursor] at hCovers
    exact hCovers

theorem Covered.parse (hCovered : parser.Covered nodes) :
    parser.parse.parser.Covered (nodes ++ nodesOf [parser.parse]) ∧ Drained parser.parse := by
  obtain ⟨hNodes, hParser⟩ := parse_of_pinned_eq_nil hCovered.hPinned hCovered.hCursor
  have hReturned : nodesOf [parser.parse] = parser.walk.constructs.map (·.node) := by
    simp [nodesOf, hNodes, Except.toOption]
  have hMore : Covers (nodesOf [parser.parse]) (parser.tokens.drop parser.cursor) [] := by
    rw [hReturned]
    exact RuleSet.covers_walk hCovered.hPinned _ _ _
  have hCursor : parser.parse.parser.cursor = parser.parse.parser.tokens.length := by
    rw [hParser]
  refine ⟨⟨?_, Nat.le_of_eq hCursor, ?_⟩, ⟨_, hNodes⟩, hCursor, parse_of_cursor_eq_length hCursor⟩
  · rw [hParser]
    exact hCovered.hPinned
  · rw [hCursor, List.drop_length, hParser]
    exact hCovered.hCovers.append hMore

/-- Every request keeps the buffer covered, and a parse that it makes leaves nothing over. -/
theorem Covered.serve (hCovered : parser.Covered nodes) (request : Request) :
    (parser.serve request).2.Covered (nodes ++ nodesOf (parser.serve request).1) ∧
      ∀ parsed ∈ (parser.serve request).1, Drained parsed := by
  cases request with
  | parse =>
      obtain ⟨hAfter, hDrained⟩ := hCovered.parse
      exact ⟨hAfter, List.forall_mem_singleton.mpr hDrained⟩
  | extend tokens =>
      refine ⟨?_, List.forall_mem_nil _⟩
      simp only [Parser.serve, nodesOf, List.flatMap_nil, List.append_nil]
      exact hCovered.extend tokens
  | setJsonMode jsonMode =>
      refine ⟨?_, List.forall_mem_nil _⟩
      simp only [Parser.serve, nodesOf, List.flatMap_nil, List.append_nil]
      exact ⟨hCovered.hPinned, hCovered.hCursor, hCovered.hCovers⟩

theorem Covered.serveAll (hCovered : parser.Covered nodes) (requests : List Request) :
    (parser.serveAll requests).2.Covered (nodes ++ nodesOf (parser.serveAll requests).1) ∧
      ∀ parsed ∈ (parser.serveAll requests).1, Drained parsed := by
  induction requests generalizing parser nodes with
  | nil =>
      refine ⟨?_, List.forall_mem_nil _⟩
      simp only [Parser.serveAll, nodesOf, List.flatMap_nil, List.append_nil]
      exact hCovered
  | cons request more ih =>
      obtain ⟨hServed, hDrained⟩ := hCovered.serve request
      obtain ⟨hLast, hFurther⟩ := ih hServed
      refine ⟨?_, List.forall_mem_append.mpr ⟨hDrained, hFurther⟩⟩
      rw [List.append_assoc, nodesOf, nodesOf, ← List.flatMap_append] at hLast
      exact hLast

/-- A parser that was only just made has returned no nodes for the tokens before its cursor. -/
theorem covered_start (tokens : List Token) (jsonMode : Bool) (table : SymbolTable) :
    Covered { tokens, rules := { jsonMode }, table } [] :=
  ⟨rfl, Nat.zero_le tokens.length, .nil tokens⟩

theorem serveAll_append (parser : Parser) (first second : List Request) :
    parser.serveAll (first ++ second) =
      ((parser.serveAll first).1 ++ ((parser.serveAll first).2.serveAll second).1,
        ((parser.serveAll first).2.serveAll second).2) := by
  induction first generalizing parser with
  | nil => rfl
  | cons request more ih => simp only [List.cons_append, serveAll, ih, List.append_assoc]

end Parser

/-- However a parser with the built-in forms is used, no parse fails and each leaves the cursor at
the end of the buffer, where another parse finds nothing. The nodes of all parses cover the buffer
up to the cursor, and after a parse the whole of it. -/
theorem nodes_cover_buffer (tokens : List Token) (jsonMode : Bool) (table : SymbolTable)
    (requests : List Parser.Request) :
    let start : Parser := { tokens, rules := { jsonMode }, table }
    let used := start.serveAll requests
    let parsed := start.serveAll (requests ++ [.parse])
    (∀ answer ∈ used.1, Parser.Drained answer) ∧
      Covers (Parser.nodesOf used.1) used.2.tokens (used.2.tokens.drop used.2.cursor) ∧
      (Parser.nodesOf used.1).length ≤ used.2.tokens.length ∧
      Covers (Parser.nodesOf parsed.1) parsed.2.tokens [] := by
  intro start used parsed
  have hStart : start.Covered [] := Parser.covered_start tokens jsonMode table
  obtain ⟨hUsed, hDrained⟩ := hStart.serveAll requests
  obtain ⟨hParsed, -⟩ := hStart.serveAll (requests ++ [.parse])
  have hLength : (Parser.nodesOf used.1).length ≤ used.2.tokens.length :=
    Nat.le_trans (Nat.le_add_right _ _) hUsed.hCovers.length_le
  have hCursor : parsed.2.cursor = parsed.2.tokens.length := by
    have hLast : parsed.2 = used.2.parse.parser := by
      simp only [parsed, used, Parser.serveAll_append, Parser.serveAll, Parser.serve]
    rw [hLast]
    exact hUsed.parse.2.hCursor
  have hRest := hParsed.hCovers
  rw [hCursor, List.drop_length] at hRest
  exact ⟨hDrained, hUsed.hCovers, hLength, hRest⟩

/-- A pair is one node only where the mode is on when it is parsed. -/
example :
    let pair : List Token := [⟨.string, "k", 1, 1⟩, ⟨.symbol, ":", 1, 4⟩, ⟨.number, "1", 1, 6⟩]
    let start : Parser := { tokens := pair }
    let used := start.serveAll [.parse, .setJsonMode true, .parse, .extend pair, .parse]
    used.1.map (fun parsed => parsed.nodes.toOption.map (·.length)) =
        [some 3, some 0, some 1] ∧
      (Parser.nodesOf used.1).map (·.kind) = [.other, .other, .other, .jsonPair] := by
  decide +kernel

end FlatSyntax
