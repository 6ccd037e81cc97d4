import FlatSyntax.Proofs.Parser.Registration

/-! What a construct is told from. A form is recognized by the kinds of at most four tokens and by
whether their values are certain words; the token before them gives the documentation and nothing
else. So buffers that agree in these respects are parsed into nodes of the same kinds, however else
their values differ. -/
namespace FlatSyntax

/-- The words that patterns ask for. -/
def Form.words : List String :=
  ["&", "*", ":", "struct", "namespace", "impl", "void", "cb"]

/-- Two tokens that the parser does not tell apart: they are of one kind, no word is the value of
just one of them, and as include directives they have the same text. -/
structure Token.Alike (first second : Token) : Prop where
  hKind : first.kind = second.kind
  hWords : ∀ word ∈ Form.words, first.value = word ↔ second.value = word
  hDirective : first.kind = .directive → first.value = second.value

/-- The construct with another documentation of what it declares. -/
def Construct.documented (doc : String) (construct : Construct) : Construct :=
  { construct with symbol := construct.symbol.map ({ · with doc }) }

namespace Form

variable {jsonMode : Bool} {form : Form} {window : List Token}

theorem trigger_length_le_four (form : Form) : form.trigger.length ≤ 4 := by
  cases form <;> decide

theorem ofWindow?_take_four (jsonMode : Bool) (window : List Token) :
    ofWindow? jsonMode (window.take 4) = ofWindow? jsonMode window := by
  simp only [ofWindow?, Pattern.fits_take (trigger_length_le_four _)]

/-- Tokens behind the trigger of a form do not change the construct. -/
theorem construct_append (hFits : form.trigger.fits window = true) (previous : Option Token)
    (more : List Token) :
    form.construct previous (window ++ more) = form.construct previous window := by
  cases form with
  | directive | loneMarker | other =>
      obtain ⟨token, beyond, rfl, -⟩ := Pattern.fits_cons_iff.mp hFits
      rfl
  | reference | bodyBlock | structCall | plainVariable | codeBlock | staticExecution =>
      obtain ⟨head, token, beyond, rfl, -⟩ := Pattern.exists_two_of_fits hFits
      rfl
  | voidFunction | function =>
      obtain ⟨head, name, parameters, _, rfl, -, -, -, hBody⟩ :=
        Pattern.exists_three_of_fits hFits
      obtain ⟨body, beyond, rfl, -⟩ := Pattern.fits_cons_iff.mp hBody
      rfl
  | _ =>
      obtain ⟨head, middle, last, beyond, rfl, -⟩ := Pattern.exists_three_of_fits hFits
      rfl

theorem construct_take_four (hFits : form.trigger.fits window = true)
    (previous : Option Token) :
    form.construct previous (window.take 4) = form.construct previous window := by
  have hFour : form.trigger.fits (window.take 4) = true := by
    rw [Pattern.fits_take (trigger_length_le_four form), hFits]
  rw [← construct_append hFour previous (window.drop 4), List.take_append_drop]

/-- The token before a construct gives its documentation and nothing else. -/
theorem construct_eq_documented (form : Form) (previous previous' : Option Token)
    (window : List Token) :
    form.construct previous window =
      (form.construct previous' window).documented (docOf previous) := by
  unfold construct
  split
  · unfold includeConstruct
    split <;> rfl
  · simp [Construct.documented, Option.map_map, Function.comp_def]

theorem construct_congr_doc {previous previous' : Option Token}
    (hDoc : docOf previous = docOf previous') (form : Form) (window : List Token) :
    form.construct previous window = form.construct previous' window := by
  rw [construct_eq_documented form previous none, hDoc, ← construct_eq_documented]

/-- Every value that a pattern asks for is one of the words. -/
theorem value_mem_words :
    ∀ form ∈ all, ∀ element ∈ form.trigger, ∀ value ∈ element.value?, value ∈ words := by
  decide

/-- What is registered for a recognized form is of the kind that its node tells. -/
theorem symbolKind_construct (hForm : ofWindow? jsonMode window = some form)
    (previous : Option Token) :
    (form.construct previous window).symbol.map (·.kind) =
      (form.construct previous window).node.kind.symbolKind? := by
  have hRegisters := registers_site hForm previous
  cases hSymbol : (form.construct previous window).symbol with
  | none =>
      rw [hSymbol] at hRegisters
      exact (Option.not_isSome_iff_eq_none.mp (Bool.eq_false_iff.mp hRegisters)).symm
  | some symbol =>
      rw [hSymbol] at hRegisters
      exact hRegisters.hKind.symm

end Form

theorem PatternElement.admits_of_alike {element : PatternElement} {first second : Token}
    (hWords : ∀ value ∈ element.value?, value ∈ Form.words) (hAlike : first.Alike second) :
    element.admits first = element.admits second := by
  have hValue (word : String) (hWord : word ∈ Form.words) :
      (first.value == word) = (second.value == word) := by
    rw [Bool.eq_iff_iff, beq_iff_eq, beq_iff_eq]
    exact hAlike.hWords word hWord
  cases element with
  | any => rfl
  | kind expected => rw [admits, admits, hAlike.hKind]
  | value expected => rw [admits, admits, hValue expected (hWords expected rfl)]
  | exactly kind value => rw [admits, admits, hAlike.hKind, hValue value (hWords value rfl)]

/-- What a construct adds to the shape of its parse: the kind of its node, how many tokens it takes
and the kind of what it registers. -/
def Construct.shape (construct : Construct) : NodeKind × Int × Option SymbolKind :=
  (construct.node.kind, construct.width, construct.symbol.map (·.kind))

namespace Form

variable {jsonMode : Bool} {form : Form} {first second : List Token}

theorem ofWindow?_eq_of_alike (jsonMode : Bool) (hAlike : List.Forall₂ Token.Alike first second) :
    ofWindow? jsonMode first = ofWindow? jsonMode second := by
  have hFits (form : Form) : form.trigger.fits first = form.trigger.fits second := by
    refine Pattern.fits_congr (fun element hMem a b hTokens => ?_) hAlike
    exact PatternElement.admits_of_alike (value_mem_words form (mem_all form) element hMem) hTokens
  simp only [ofWindow?, hFits]

theorem shape_construct_congr (hAlike : List.Forall₂ Token.Alike first second)
    (hForm : ofWindow? jsonMode first = some form) (previous previous' : Option Token) :
    (form.construct previous first).shape = (form.construct previous' second).shape := by
  have hSecond := ofWindow?_eq_of_alike jsonMode hAlike ▸ hForm
  have hKind : (form.construct previous first).node.kind =
      (form.construct previous' second).node.kind := by
    by_cases hDirective : form = directive
    · subst hDirective
      obtain ⟨token, more, rfl, hToken, -⟩ := Pattern.fits_cons_iff.mp (fits_of_ofWindow? hForm)
      obtain ⟨token', more', hTokens, -, rfl⟩ := List.forall₂_cons_left_iff.mp hAlike
      simp only [construct, includeConstruct, hTokens.hDirective (eq_of_beq hToken)]
      split <;> rfl
    · have hSame (previous : Option Token) (window : List Token) :
          (form.construct previous window).node.kind = form.nodeKind :=
        (kind_construct form previous window).resolve_right fun hLocal => hDirective hLocal.1
      rw [hSame, hSame]
  rw [Construct.shape, Construct.shape, symbolKind_construct hForm, symbolKind_construct hSecond,
    width_construct, width_construct, hKind]

end Form

/-- Walks over tokens that are alike meet constructs of the same shapes. -/
theorem RuleSet.shapes_walk_of_alike {rules : RuleSet} (hPinned : rules.pinned = [])
    {first second : List Token} (hAlike : List.Forall₂ Token.Alike first second)
    (previous previous' : Option Token) (index index' : Nat) :
    (rules.walk previous index first).constructs.map Construct.shape =
      (rules.walk previous' index' second).constructs.map Construct.shape := by
  refine map_constructs_walk_congr rules hPinned Construct.shape
    (fun _ first _ second => List.Forall₂ Token.Alike first second) ?_ ?_ hAlike index index'
  · intro _ _ second hAlike
    exact List.forall₂_nil_left_iff.mp hAlike
  · intro previous first previous' second form hAlike hForm
    exact ⟨Form.ofWindow?_eq_of_alike _ hAlike ▸ hForm,
      Form.shape_construct_congr hAlike hForm previous previous',
      List.forall₂_drop form.width hAlike⟩

namespace Parser

variable {parser first second : Parser}

/-- The construct at an index is that of the four tokens from the index on. -/
theorem construct?_eq (hPinned : parser.rules.pinned = []) (index : Nat) :
    let window := (parser.tokens.drop index).take 4
    parser.construct? index =
      (Form.ofWindow? parser.rules.jsonMode window).map
        (·.construct (parser.before index) window) := by
  intro window
  simp only [window, Form.ofWindow?_take_four, construct?, RuleSet.construct?,
    RuleSet.pinnedConstruct?, hPinned, List.find?_nil, Option.map_none]
  cases hForm : Form.ofWindow? parser.rules.jsonMode (parser.tokens.drop index) with
  | none => rfl
  | some form =>
      rw [Option.map_some, Option.map_some,
        Form.construct_take_four (Form.fits_of_ofWindow? hForm)]

/-- Where the same four tokens follow, the constructs of two parsers differ in their documentation
at most. -/
theorem construct?_eq_documented (hPinned : first.rules.pinned = [])
    (hRules : second.rules = first.rules) {index index' : Nat}
    (hWindow : (first.tokens.drop index).take 4 = (second.tokens.drop index').take 4) :
    second.construct? index' =
      (first.construct? index).map (·.documented (Form.docOf (second.before index'))) := by
  have hPinned' : second.rules.pinned = [] := hRules ▸ hPinned
  rw [construct?_eq hPinned, construct?_eq hPinned', hRules, hWindow, Option.map_map]
  congr 1
  funext form
  exact Form.construct_eq_documented form _ _ _

/-- Parsers that go on from the same index of buffers that are alike walk over constructs of the
same shapes. -/
theorem shapes_walk_of_alike (hPinned : first.rules.pinned = [])
    (hRules : second.rules = first.rules) (hCursor : first.cursor = second.cursor)
    (hAlike : List.Forall₂ Token.Alike first.tokens second.tokens) :
    first.walk.constructs.map Construct.shape = second.walk.constructs.map Construct.shape := by
  rw [walk, walk, hRules, hCursor]
  exact RuleSet.shapes_walk_of_alike hPinned (List.forall₂_drop second.cursor hAlike) _ _ _ _

end Parser

/-- The kinds of the symbols among constructs are told by the shapes of these. -/
theorem Construct.symbolKinds_eq (constructs : List Construct) :
    (constructs.filterMap (·.symbol)).map (·.kind) =
      (constructs.map Construct.shape).filterMap (·.2.2) := by
  rw [List.filterMap_map, List.map_filterMap]
  rfl

/-- Two parsers with the built-in forms and the same mode, whatever they did before. What they
recognize at an index is told from the four tokens there, except that the token before them gives
the documentation. And if one is to parse a buffer like that of the other, both return nodes of the
same kinds for windows of the same sizes and register symbols of the same kinds. -/
theorem recognition_reads_kinds_and_words {first second : Parser}
    (hPinned : first.rules.pinned = []) (hRules : second.rules = first.rules) :
    (∀ index index', (first.tokens.drop index).take 4 = (second.tokens.drop index').take 4 →
        second.construct? index' =
          (first.construct? index).map (·.documented (Form.docOf (second.before index')))) ∧
      (first.cursor = second.cursor → List.Forall₂ Token.Alike first.tokens second.tokens →
        ∃ kinds symbols symbols',
          first.parse.nodes.map (·.map (·.kind)) = .ok kinds ∧
          second.parse.nodes.map (·.map (·.kind)) = .ok kinds ∧
          first.parse.constructs.map (·.width) = second.parse.constructs.map (·.width) ∧
          first.parse.parser.table.symbols = first.table.symbols ++ symbols ∧
          second.parse.parser.table.symbols = second.table.symbols ++ symbols' ∧
          symbols.map (·.kind) = symbols'.map (·.kind)) := by
  refine ⟨fun _ _ hWindow => Parser.construct?_eq_documented hPinned hRules hWindow, ?_⟩
  intro hCursor hAlike
  have hShapes := Parser.shapes_walk_of_alike hPinned hRules hCursor hAlike
  have hKinds : first.walk.constructs.map (·.node.kind) =
      second.walk.constructs.map (·.node.kind) := by
    simpa [List.map_map, Function.comp_def, Construct.shape] using
      congrArg (List.map (·.1)) hShapes
  have hWidths : first.walk.constructs.map (·.width) = second.walk.constructs.map (·.width) := by
    simpa [List.map_map, Function.comp_def, Construct.shape] using
      congrArg (List.map (·.2.1)) hShapes
  refine ⟨first.walk.constructs.map (·.node.kind), first.walk.constructs.filterMap (·.symbol),
    second.walk.constructs.filterMap (·.symbol), ?_, ?_, ?_, ?_, ?_, ?_⟩
  · rw [Parser.nodes_parse hPinned, Except.map, List.map_map]
    rfl
  · rw [Parser.nodes_parse (hRules ▸ hPinned), Except.map, List.map_map, hKinds]
    rfl
  · rw [Parser.constructs_parse, Parser.constructs_parse, hWidths]
  · rw [Parser.table_parse, SymbolTable.symbols_registerAll]
  · rw [Parser.table_parse, SymbolTable.symbols_registerAll]
  · rw [Construct.symbolKinds_eq, Construct.symbolKinds_eq, hShapes]

theorem recognition_reads_kinds_and_words_variable :
    let noted : Parser :=
      { tokens := [⟨.comment, "note", 1, 1⟩, ⟨.identifier, "int", 2, 1⟩, ⟨.identifier, "x", 2, 5⟩] }
    let bare : Parser := { tokens := [⟨.identifier, "int", 2, 1⟩, ⟨.identifier, "x", 2, 5⟩] }
    let other : Parser :=
      { tokens := [⟨.comment, "", 1, 1⟩, ⟨.identifier, "T", 2, 1⟩, ⟨.identifier, "y", 2, 3⟩] }
    (noted.tokens.drop 1).take 4 = (bare.tokens.drop 0).take 4 ∧
      bare.construct? 0 = (noted.construct? 1).map (·.documented "") ∧
      List.Forall₂ Token.Alike noted.tokens other.tokens ∧
      ∃ kinds symbols symbols',
        noted.parse.nodes.map (·.map (·.kind)) = .ok kinds ∧
        other.parse.nodes.map (·.map (·.kind)) = .ok kinds ∧
        noted.parse.constructs.map (·.width) = other.parse.constructs.map (·.width) ∧
        noted.parse.parser.table.symbols = [] ++ symbols ∧
        other.parse.parser.table.symbols = [] ++ symbols' ∧
        symbols.map (·.kind) = symbols'.map (·.kind) := by
  intro noted bare other
  have hAlike : List.Forall₂ Token.Alike noted.tokens other.tokens := by
    refine .cons ?_ (.cons ?_ (.cons ?_ .nil)) <;> exact ⟨rfl, by decide, by decide⟩
  obtain ⟨hWindow, -⟩ := @recognition_reads_kinds_and_words noted bare rfl rfl
  obtain ⟨-, hParses⟩ := @recognition_reads_kinds_and_words noted other rfl rfl
  exact ⟨rfl, hWindow 1 0 rfl, hAlike, hParses rfl hAlike⟩

end FlatSyntax
