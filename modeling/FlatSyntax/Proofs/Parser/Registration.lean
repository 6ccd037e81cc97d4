import FlatSyntax.Proofs.Parser.Windows
import Mathlib.Data.List.Forall2

/-! What a parse registers. A symbol is recorded on the way, where a form is recognized, and not
read off the nodes; this module tells it from the nodes and their windows. -/
namespace FlatSyntax

/-- The kind of symbol that a node of this kind is registered as, if it is registered. -/
def NodeKind.symbolKind? : NodeKind → Option SymbolKind
  | structDecl => some .struct
  | namespaceDecl => some .scope
  | functionDecl | voidFunctionDecl => some .function
  | structVar | variableDecl | pointerDecl => some .binding
  | _ => none

/-- A node with the window of tokens that was taken for it and the token before the window. -/
structure Site where
  node : Node
  window : List Token
  previous : Option Token

namespace Site

def isRegistered (site : Site) : Bool :=
  site.node.kind.symbolKind?.isSome

/-- The token that names a node in the symbol table: the first one that the node shows, but the
generic arguments where a variable has these. -/
def namingToken? (site : Site) : Option Token :=
  if site.window.map (·.kind) = [.identifier, .angle, .identifier] then site.window[1]?
  else site.node.tokens.head?

/-- A symbol that stands for the node at a site. -/
structure Registers (site : Site) (symbol : Symbol) : Prop where
  hKind : site.node.kind.symbolKind? = some symbol.kind
  hName : ∃ token, site.namingToken? = some token ∧ symbol.name = token.value ∧
    symbol.position = token.position
  hComment : ∀ token, site.previous = some token → token.kind = .comment → symbol.doc = token.value
  hNoComment : (∀ token, site.previous = some token → token.kind ≠ .comment) → symbol.doc = ""

theorem Registers.isRegistered {site : Site} {symbol : Symbol}
    (hRegisters : site.Registers symbol) : site.isRegistered = true := by
  rw [Site.isRegistered, hRegisters.hKind]
  rfl

end Site

/-- The sites of constructs that follow one another from an index of the buffer on. -/
def Parser.sites (parser : Parser) : (index : Nat) → List Construct → List Site
  | _, [] => []
  | index, construct :: more =>
      { node := construct.node
        window := (parser.tokens.drop index).take construct.width.toNat
        previous := parser.before index } ::
        parser.sites (index + construct.width.toNat) more

/-- Whether a row reports a registration. -/
def LogRow.isRegistration (row : LogRow) : Bool :=
  "Registered ".toList.isPrefixOf row.message.toList

theorem LogRow.isRegistration_registered (symbol : Symbol) :
    (LogRow.registered symbol).isRegistration = true := by
  simp [isRegistration, registered]

theorem LogRow.isRegistration_unknownInclude (directive : String) :
    (LogRow.unknownInclude directive).isRegistration = false := by
  simp only [isRegistration, unknownInclude, String.toList_append]
  rfl

theorem LogRow.isRegistration_parsed (tokens nodes declarations : Nat) :
    (LogRow.parsed tokens nodes declarations).isRegistration = false := by
  simp only [isRegistration, parsed, String.toList_append]
  rfl

theorem Construct.registrations_logRows (construct : Construct) :
    construct.logRows.filter LogRow.isRegistration =
      (construct.symbol.map LogRow.registered).toList := by
  rw [logRows, List.filter_append]
  cases construct.symbol <;> cases construct.oddInclude <;>
    simp [LogRow.isRegistration_registered, LogRow.isRegistration_unknownInclude]

namespace Form

variable {jsonMode : Bool} {window : List Token} {form : Form}

/-- The site of a form that is recognized. -/
def site (form : Form) (previous : Option Token) (window : List Token) : Site :=
  { node := (form.construct previous window).node, window := window.take form.width, previous }

/-- What a recognized form declares is told by its node and its window. -/
theorem site_of_declared (hForm : ofWindow? jsonMode window = some form) (previous : Option Token)
    {kind : SymbolKind} {token : Token} (hDeclared : form.declared window = some (kind, token)) :
    (form.site previous window).node.kind.symbolKind? = some kind ∧
      (form.site previous window).namingToken? = some token := by
  have hFits := fits_of_ofWindow? hForm
  cases form with
  | structDecl | namespaceDecl | structVar =>
      obtain ⟨head, name, body, more, rfl, -, -, hBody, -⟩ := Pattern.exists_three_of_fits hFits
      cases hDeclared
      have hCurly : body.kind = .curly := eq_of_beq hBody
      exact ⟨rfl, if_neg (by simp [site, width, trigger, hCurly])⟩
  | voidFunction | function =>
      obtain ⟨head, name, parameters, _, rfl, -, -, -, hBody⟩ :=
        Pattern.exists_three_of_fits hFits
      obtain ⟨body, more, rfl, -, -⟩ := Pattern.fits_cons_iff.mp hBody
      cases hDeclared
      exact ⟨rfl, if_neg (by simp [site, width, trigger])⟩
  | plainVariable =>
      obtain ⟨head, name, more, rfl, -, -, -⟩ := Pattern.exists_two_of_fits hFits
      cases hDeclared
      exact ⟨rfl, if_neg (by simp [site, width, trigger])⟩
  | genericVariable =>
      obtain ⟨head, arguments, name, more, rfl, hHead, hArguments, hName, -⟩ :=
        Pattern.exists_three_of_fits hFits
      cases hDeclared
      have hKinds : [head.kind, token.kind, name.kind] =
          [TokenKind.identifier, .angle, .identifier] := by
        rw [eq_of_beq hHead, eq_of_beq hArguments, eq_of_beq hName]
      exact ⟨rfl, if_pos hKinds⟩
  | pointer =>
      obtain ⟨head, star, name, more, rfl, hHead, -, hName, -⟩ :=
        Pattern.exists_three_of_fits hFits
      cases hDeclared
      -- a star that is a list of generic arguments is taken by the form before this one
      have hEarlier : genericVariable ∈ all.takeWhile (· != pointer) := by decide
      have hGeneric := not_fits_of_ofWindow? hForm hEarlier
      have hStar : star.kind ≠ .angle := by
        intro hAngle
        have hElement : (PatternElement.kind .angle).admits star = true := beq_iff_eq.mpr hAngle
        simp [enabled, trigger, Pattern.fits, hHead, hElement, hName] at hGeneric
      exact ⟨rfl, if_neg (by simp [site, width, trigger, hStar])⟩
  | _ => simp [declared] at hDeclared

/-- A recognized form that declares nothing becomes a node of a kind that is not registered. -/
theorem site_of_declared_eq_none (hForm : ofWindow? jsonMode window = some form)
    (previous : Option Token) (hDeclared : form.declared window = none) :
    (form.site previous window).node.kind.symbolKind? = none := by
  have hFits := fits_of_ofWindow? hForm
  have hKind : form.nodeKind.symbolKind? = none := by
    cases form with
    | structDecl | namespaceDecl | structVar | voidFunction | function | plainVariable
    | genericVariable =>
        obtain ⟨head, name, more, rfl, -⟩ := Pattern.exists_two_of_fits hFits
        cases hDeclared
    | pointer =>
        obtain ⟨head, star, name, more, rfl, -⟩ := Pattern.exists_three_of_fits hFits
        cases hDeclared
    | _ => rfl
  rcases kind_construct form previous window with hSame | ⟨-, hLocal⟩
  · rw [site, hSame, hKind]
  · rw [site, hLocal]
    rfl

/-- The symbol of a recognized form stands for the node at its site; without a symbol, the node is
of a kind that is not registered. -/
theorem registers_site (hForm : ofWindow? jsonMode window = some form) (previous : Option Token) :
    match (form.construct previous window).symbol with
    | some symbol => (form.site previous window).Registers symbol
    | none => (form.site previous window).isRegistered = false := by
  rw [symbol_construct]
  cases hDeclared : form.declared window with
  | none =>
      simp [Site.isRegistered, site_of_declared_eq_none hForm previous hDeclared]
  | some declared =>
      obtain ⟨kind, token⟩ := declared
      obtain ⟨hKind, hToken⟩ := site_of_declared hForm previous hDeclared
      refine ⟨hKind, ⟨token, hToken, rfl, rfl⟩, fun comment hPrevious hComment => ?_, ?_⟩
      · have hPrevious : previous = some comment := hPrevious
        simp [docOf, hPrevious, hComment]
      · intro hNoComment
        cases previous with
        | none => rfl
        | some before => exact if_neg (hNoComment before rfl)

end Form

namespace Parser

variable {parser : Parser}

theorem before_add (parser : Parser) (index : Nat) {width : Nat} (hWidth : 1 ≤ width) :
    parser.before (index + width) = (parser.tokens.drop index)[width - 1]? := by
  rw [before, if_neg (by omega), List.getElem?_drop]
  congr 1
  omega

theorem sites_construct {index : Nat} {window : List Token}
    (hWindow : parser.tokens.drop index = window) (form : Form) (more : List Construct) :
    parser.sites index (form.construct (parser.before index) window :: more) =
      form.site (parser.before index) window :: parser.sites (index + form.width) more := by
  rw [sites, hWindow, Form.width_construct, Int.toNat_natCast]
  rfl

/-- The sites of a walk by the built-in forms, one step at a time. -/
theorem sites_walk (hPinned : parser.rules.pinned = []) {index : Nat} {window : List Token}
    (hWindow : parser.tokens.drop index = window) {form : Form}
    (hForm : Form.ofWindow? parser.rules.jsonMode window = some form) :
    parser.sites index (parser.rules.walk (parser.before index) index window).constructs =
      form.site (parser.before index) window ::
        parser.sites (index + form.width)
          (parser.rules.walk (parser.before (index + form.width)) (index + form.width)
            (window.drop form.width)).constructs := by
  rw [RuleSet.walk_of_ofWindow? hPinned hForm, before_add parser index (Form.one_le_width form),
    hWindow]
  exact sites_construct hWindow form _

theorem node_sites (parser : Parser) (index : Nat) (constructs : List Construct) :
    (parser.sites index constructs).map (·.node) = constructs.map (·.node) := by
  induction constructs generalizing index with
  | nil => rfl
  | cons construct more ih => rw [sites, List.map_cons, List.map_cons, ih]

/-- The windows of a walk by the built-in forms make up the rest of the buffer, and its symbols
stand for the sites with nodes that are registered, in order. -/
theorem registers_walk (hPinned : parser.rules.pinned = []) (index : Nat) :
    let walk := parser.rules.walk (parser.before index) index (parser.tokens.drop index)
    let sites := parser.sites index walk.constructs
    sites.flatMap Site.window = parser.tokens.drop index ∧
      List.Forall₂ Site.Registers (sites.filter Site.isRegistered)
        (walk.constructs.filterMap Construct.symbol) := by
  generalize hWindow : parser.tokens.drop index = window
  induction window using Form.induction_ofWindow? parser.rules.jsonMode generalizing index with
  | hNil =>
      rw [RuleSet.walk]
      exact ⟨rfl, .nil⟩
  | hForm window form hForm ih =>
      have hBeyond : parser.tokens.drop (index + form.width) = window.drop form.width := by
        rw [← hWindow, List.drop_drop]
      obtain ⟨hMore, hSymbols⟩ := ih (index + form.width) hBeyond
      have hRegisters := Form.registers_site hForm (parser.before index)
      rw [before_add parser index (Form.one_le_width form), hWindow] at hMore hSymbols
      rw [RuleSet.walk_of_ofWindow? hPinned hForm]
      simp only [sites_construct hWindow]
      refine ⟨?_, ?_⟩
      · rw [List.flatMap_cons, hMore]
        exact List.take_append_drop form.width window
      · cases hSymbol : (form.construct (parser.before index) window).symbol with
        | none =>
            rw [hSymbol] at hRegisters
            have hOther : ¬ (form.site (parser.before index) window).isRegistered = true := by
              rw [hRegisters]
              exact Bool.false_ne_true
            rw [List.filterMap_cons_none hSymbol, List.filter_cons_of_neg hOther]
            exact hSymbols
        | some symbol =>
            rw [hSymbol] at hRegisters
            rw [List.filterMap_cons_some hSymbol, List.filter_cons_of_pos hRegisters.isRegistered]
            exact .cons hRegisters hSymbols

/-- At the end of a log stands how many of the nodes are declarations. -/
theorem log_parse (hPinned : parser.rules.pinned = [])
    (hCursor : parser.cursor ≤ parser.tokens.length) :
    let nodes := parser.walk.constructs.map (·.node)
    parser.parse.log = parser.walk.constructs.flatMap (·.logRows) ++
      [.parsed parser.tokens.length nodes.length (Node.declarations nodes).length] := by
  intro nodes
  unfold parse Node.declarations
  simp only [ending_walk_of_pinned_eq_nil hPinned hCursor, List.countP_eq_length_filter]
  rfl

/-- The rows of constructs report their symbols, each once and in order. -/
theorem registrations_logRows (constructs : List Construct) :
    (constructs.flatMap (·.logRows)).filter LogRow.isRegistration =
      (constructs.filterMap (·.symbol)).map LogRow.registered := by
  induction constructs with
  | nil => rfl
  | cons construct more ih =>
      rw [List.flatMap_cons, List.filter_append, ih, Construct.registrations_logRows]
      cases hSymbol : construct.symbol with
      | none => rw [List.filterMap_cons_none hSymbol]; rfl
      | some symbol => rw [List.filterMap_cons_some hSymbol]; rfl

end Parser

/-- However a parser with the built-in forms was used before, a parse registers one symbol for each
node of a registered kind, in order, and none for any other node. The kind of a symbol is that of
its node; its name and its position are those of the token that names the node, and it is documented
by the comment right before the window of the node, if one stands there. The log reports exactly
these registrations, in order, with kind, name and position, and at last how many of the nodes are
declarations. -/
theorem registrations_match_nodes (tokens : List Token) (jsonMode : Bool) (table : SymbolTable)
    (requests : List Parser.Request) :
    let start : Parser := { tokens, rules := { jsonMode }, table }
    let parser := (start.serveAll requests).2
    let parsed := parser.parse
    let sites := parser.sites parser.cursor parsed.constructs
    let nodes := sites.map (·.node)
    ∃ symbols,
      parsed.nodes = .ok nodes ∧
      sites.flatMap Site.window = parser.tokens.drop parser.cursor ∧
      parsed.parser.table.symbols = parser.table.symbols ++ symbols ∧
      List.Forall₂ Site.Registers (sites.filter Site.isRegistered) symbols ∧
      (parsed.log.filter LogRow.isRegistration = symbols.map fun symbol =>
        { level := .debug, reporter := "wyst.frontend.parser"
          message := "Registered " ++ symbol.kind.word ++ " '" ++ symbol.name ++ "' at " ++
            symbol.position.text }) ∧
      parsed.log.getLast? = some
        { level := .debug, reporter := "wyst.frontend.parser"
          message := "Parsed " ++ toString parser.tokens.length ++ " tokens into " ++
            toString nodes.length ++ " nodes (" ++ toString (Node.declarations nodes).length ++
            " declarations)" } := by
  intro start parser parsed sites nodes
  obtain ⟨⟨hPinned, hCursor, -⟩, -⟩ :=
    (Parser.covered_start tokens jsonMode table).serveAll requests
  obtain ⟨hNodes, hParser⟩ := Parser.parse_of_pinned_eq_nil hPinned hCursor
  obtain ⟨hWindows, hSymbols⟩ := Parser.registers_walk hPinned parser.cursor
  have hConstructs : parsed.constructs = parser.walk.constructs := Parser.constructs_parse parser
  have hSites : nodes = parser.walk.constructs.map (·.node) := by
    rw [← hConstructs]
    exact Parser.node_sites parser parser.cursor parsed.constructs
  have hLog : parsed.log = parser.walk.constructs.flatMap (·.logRows) ++
      [.parsed parser.tokens.length nodes.length (Node.declarations nodes).length] := by
    rw [hSites]
    exact Parser.log_parse hPinned hCursor
  refine ⟨parser.walk.constructs.filterMap (·.symbol), hNodes.trans (congrArg _ hSites.symm),
    ?_, ?_, ?_, ?_, ?_⟩
  · simp only [sites, hConstructs]
    exact hWindows
  · rw [hParser]
    exact SymbolTable.symbols_registerAll _ _
  · simp only [sites, hConstructs]
    exact hSymbols
  · have hOther := LogRow.isRegistration_parsed parser.tokens.length nodes.length
      (Node.declarations nodes).length
    rw [hLog, List.filter_append, Parser.registrations_logRows, List.filter_singleton, hOther]
    exact List.append_nil _
  · rw [hLog, List.getLast?_append]
    rfl

/-- A variable with a group of fields is registered and is no declaration, so the counts differ. -/
theorem registrations_match_nodes_fields :
    let tokens : List Token :=
      [⟨.comment, "a list", 1, 1⟩, ⟨.identifier, "Vec", 2, 1⟩, ⟨.angle, "int", 2, 4⟩,
        ⟨.identifier, "v", 2, 10⟩, ⟨.symbol, ";", 2, 11⟩, ⟨.identifier, "Foo", 3, 1⟩,
        ⟨.identifier, "x", 3, 5⟩, ⟨.curly, "1", 3, 7⟩]
    let parser : Parser := { tokens }
    let parsed := parser.parse
    let nodes : List Node :=
      [⟨.other, [⟨.comment, "a list", 1, 1⟩]⟩,
        ⟨.variableDecl, [⟨.identifier, "v<int>", 2, 10⟩]⟩, ⟨.other, [⟨.symbol, ";", 2, 11⟩]⟩,
        ⟨.structVar, [⟨.identifier, "x", 3, 5⟩, ⟨.curly, "1", 3, 7⟩]⟩]
    let symbols : List Symbol :=
      [⟨.binding, "int", ⟨2, 4⟩, "a list"⟩, ⟨.binding, "x", ⟨3, 5⟩, ""⟩]
    parsed.nodes = .ok nodes ∧ parsed.parser.table.symbols = symbols ∧
      List.Forall₂ Site.Registers ((parser.sites 0 parsed.constructs).filter Site.isRegistered)
        symbols ∧
      (parsed.log.filter LogRow.isRegistration).map (·.text) =
        ["DEBUG wyst.frontend.parser: Registered variable 'int' at 2:4",
          "DEBUG wyst.frontend.parser: Registered variable 'x' at 3:5"] ∧
      parsed.log.getLast? = some ⟨.debug, "wyst.frontend.parser",
        "Parsed 8 tokens into 4 nodes (1 declarations)"⟩ := by
  intro tokens parser parsed nodes symbols
  have hSites : (parser.sites 0 parsed.constructs).map (·.node) = nodes := by decide +kernel
  have hTable : parsed.parser.table.symbols = symbols := by decide +kernel
  obtain ⟨found, hNodes, -, hFound, hRegisters, hRows, hLast⟩ :=
    registrations_match_nodes tokens false .empty []
  obtain rfl : found = symbols := hFound.symm.trans hTable
  have hTexts := congrArg (List.map LogRow.text) hRows
  exact ⟨hNodes.trans (congrArg Except.ok hSites), hTable, hRegisters,
    hTexts.trans (by decide +kernel), hLast.trans (by decide +kernel)⟩

end FlatSyntax
