import FlatSyntax.Proofs.Parser.Locality

/-! Tokens that keep apart what stands on their two sides. An operator or a number is part of a
longer construct only where its text is one of a few words; any other one is a construct by itself,
no window reaches over it, and it documents nothing. -/
namespace FlatSyntax

/-- An operator or a number whose text is no word that a construct without pairs is recognized
by. -/
structure Token.IsInert (token : Token) : Prop where
  hKind : token.kind = .symbol ∨ token.kind = .number
  hValue : token.value ∉ ["&", "*", "struct", "namespace", "impl"]

theorem Token.IsInert.docOf {inert : Token} (hInert : inert.IsInert) :
    Form.docOf (some inert) = "" := by
  refine if_neg ?_
  rcases hInert.hKind with hKind | hKind <;> rw [hKind] <;> decide

/-- A pattern none of whose elements admits a token does not reach over it. -/
theorem Pattern.fits_append_cons {pattern : Pattern} {token : Token}
    (hAdmits : ∀ element ∈ pattern, element.admits token = false) (window more : List Token) :
    pattern.fits (window ++ token :: more) = pattern.fits window := by
  induction pattern generalizing window with
  | nil => rfl
  | cons element pattern ih =>
      obtain ⟨hHead, hTail⟩ := List.forall_mem_cons.mp hAdmits
      cases window with
      | nil => rw [List.nil_append, fits, fits, hHead, Bool.false_and]
      | cons first window => rw [List.cons_append, fits, fits, ih hTail]

namespace Form

variable {inert : Token}

/-- Every element of a trigger but that of a single token asks for a kind that no operator and no
number has, or for one of the words. -/
theorem asks_of_mem_trigger : ∀ form ∈ all, form ≠ jsonPair → form ≠ other →
    ∀ element ∈ form.trigger,
      (∃ kind ∈ element.kind?, kind ≠ .symbol ∧ kind ≠ .number) ∨
        ∃ value ∈ element.value?, value ∈ ["&", "*", "struct", "namespace", "impl"] := by
  decide

theorem not_admits_of_isInert (hInert : inert.IsInert) {form : Form} (hPair : form ≠ jsonPair)
    (hOther : form ≠ other) : ∀ element ∈ form.trigger, element.admits inert = false := by
  intro element hMem
  rw [Bool.eq_false_iff]
  intro hAdmits
  rcases asks_of_mem_trigger form (mem_all form) hPair hOther element hMem with
    ⟨kind, hKind, hSymbol, hNumber⟩ | ⟨value, hValue, hWord⟩
  · rw [← PatternElement.kind_of_admits hAdmits kind hKind] at hSymbol hNumber
    exact hInert.hKind.elim hSymbol hNumber
  · rw [← PatternElement.value_of_admits hAdmits value hValue] at hWord
    exact hInert.hValue hWord

/-- An inert token at the front of a window is taken by itself. -/
theorem ofWindow?_inert (hInert : inert.IsInert) (more : List Token) :
    ofWindow? false (inert :: more) = some other := by
  obtain ⟨form, hForm⟩ := exists_ofWindow? false inert more
  have hPair := ne_jsonPair_of_ofWindow? hForm
  by_cases hOther : form = other
  · rw [hForm, hOther]
  · have hFits := fits_of_ofWindow? hForm
    have hNone := Pattern.fits_append_cons (not_admits_of_isInert hInert hPair hOther) [] more
    rw [List.nil_append, hFits] at hNone
    have hLength := Pattern.length_le_of_fits hNone.symm
    have hWidth := one_le_width form
    have hTrigger := width_le_trigger_length form
    rw [List.length_nil] at hLength
    omega

/-- What is recognized before an inert token does not depend on it or on what follows. -/
theorem ofWindow?_append_inert (hInert : inert.IsInert) {window : List Token}
    (hWindow : window ≠ []) (more : List Token) :
    ofWindow? false (window ++ inert :: more) = ofWindow? false window := by
  have hSame (form : Form) :
      (form.enabled false && form.trigger.fits (window ++ inert :: more)) =
        (form.enabled false && form.trigger.fits window) := by
    by_cases hPair : form = jsonPair
    · rw [hPair]
      rfl
    by_cases hOther : form = other
    · obtain ⟨token, beyond, rfl⟩ := List.exists_cons_of_ne_nil hWindow
      rw [hOther]
      rfl
    · rw [Pattern.fits_append_cons (not_admits_of_isInert hInert hPair hOther)]
  simp only [ofWindow?, hSame]

end Form

/-- The construct of a token by itself. -/
def Construct.single (token : Token) : Construct :=
  { node := { kind := .other, tokens := [token] }, width := 1 }

namespace RuleSet

variable {inert : Token}

/-- The constructs of a walk do not depend on the index where it starts, nor on the token before
it but for its documentation. -/
theorem constructs_walk_eq_of_docOf_eq {rules : RuleSet} (hPinned : rules.pinned = [])
    {previous previous' : Option Token} (hDoc : Form.docOf previous = Form.docOf previous')
    (index index' : Nat) (window : List Token) :
    (rules.walk previous index window).constructs =
      (rules.walk previous' index' window).constructs := by
  have hSame := map_constructs_walk_congr rules hPinned id
    (fun previous first previous' second =>
      Form.docOf previous = Form.docOf previous' ∧ first = second)
    (fun _ _ _ hRelated => hRelated.2.symm)
    (fun previous first previous' second form hRelated hForm => by
      obtain ⟨hDoc, rfl⟩ := hRelated
      exact ⟨hForm, Form.construct_congr_doc hDoc form first, rfl, rfl⟩)
    (⟨hDoc, rfl⟩ : Form.docOf previous = Form.docOf previous' ∧ window = window) index index'
  rw [List.map_id, List.map_id] at hSame
  exact hSame

/-- A walk over an inert token is a walk up to it, the token by itself and a walk behind it. -/
theorem constructs_walk_append_inert (hInert : inert.IsInert) (previous : Option Token)
    (index : Nat) (window more : List Token) :
    (walk {} previous index (window ++ inert :: more)).constructs =
      (walk {} previous index window).constructs ++
        .single inert :: (walk {} none 0 more).constructs := by
  induction window using Form.induction_ofWindow? false generalizing previous index with
  | hNil =>
      have hBehind : (walk {} (some inert) (index + 1) more).constructs =
          (walk {} none 0 more).constructs :=
        constructs_walk_eq_of_docOf_eq rfl hInert.docOf (index + 1) 0 more
      rw [List.nil_append, constructs_walk (Form.ofWindow?_inert hInert more), walk.eq_1]
      exact congrArg (_ :: ·) hBehind
  | hForm window form hForm ih =>
      have hWidth := Form.width_le_length_of_ofWindow? hForm
      have hOne := Form.one_le_width form
      have hWindow : window ≠ [] := List.ne_nil_of_length_pos (by omega)
      have hWhole : Form.ofWindow? false (window ++ inert :: more) = some form := by
        rw [Form.ofWindow?_append_inert hInert hWindow, hForm]
      rw [constructs_walk hWhole, constructs_walk hForm,
        Form.construct_append (Form.fits_of_ofWindow? hForm), List.drop_append_of_le_length hWidth,
        List.getElem?_append_left (by omega), ih, List.cons_append]

end RuleSet

namespace Parser

variable {inert : Token}

/-- A parser that has gone up to an inert token takes more tokens as a parser of these alone
does. -/
theorem parse_extend_inert (hInert : inert.IsInert) (first second : List Token)
    (table : SymbolTable) :
    let constructs := (RuleSet.walk {} none 0 second).constructs
    let parsed :=
      (({ tokens := first ++ [inert], cursor := (first ++ [inert]).length, table } : Parser).extend
        second).parse
    parsed.nodes = .ok (constructs.map (·.node)) ∧
      parsed.parser =
        { tokens := first ++ [inert] ++ second, cursor := (first ++ [inert] ++ second).length,
          table := table.registerAll (constructs.filterMap (·.symbol)) } := by
  intro constructs parsed
  let further : Parser :=
    { tokens := first ++ [inert] ++ second, cursor := (first ++ [inert]).length, table }
  have hBefore : further.before further.cursor = some inert := by
    simp [further, before]
  have hDrop : further.tokens.drop further.cursor = second := List.drop_left
  have hWalk : further.walk.constructs = constructs := by
    rw [walk, hBefore, hDrop]
    exact RuleSet.constructs_walk_eq_of_docOf_eq rfl hInert.docOf further.cursor 0 second
  have hCursor : further.cursor ≤ further.tokens.length := by
    simp [further]
  rw [← hWalk]
  exact parse_of_pinned_eq_nil rfl hCursor

end Parser

/-- An inert token keeps parses apart. Without pairs, a parse of two token lists with such a token
between them has the nodes and the registrations of a parse of the first list, a node for the token
alone, and those of a parse of the second list. A parser that is given the second list only after a
parse of the first one and the token comes to the same. -/
theorem inert_token_separates_parses (table : SymbolTable) (first second : List Token)
    {inert : Token} (hInert : inert.IsInert) :
    let alone (tokens : List Token) : Parsed := ({ tokens } : Parser).parse
    let whole := ({ tokens := first ++ inert :: second, table } : Parser).parse
    let used := ({ tokens := first ++ [inert], table } : Parser).serveAll
      [.parse, .extend second, .parse]
    ∃ nodes nodes', (alone first).nodes = .ok nodes ∧ (alone second).nodes = .ok nodes' ∧
      whole.nodes = .ok (nodes ++ { kind := .other, tokens := [inert] } :: nodes') ∧
      whole.parser.table = table.registerAll
        ((alone first).parser.table.symbols ++ (alone second).parser.table.symbols) ∧
      used.1.map (·.nodes) =
        [.ok (nodes ++ [{ kind := .other, tokens := [inert] }]), .ok nodes'] ∧
      used.2 = whole.parser := by
  intro alone whole used
  let halfway := ({ tokens := first ++ [inert], table } : Parser).parse
  let further := (halfway.parser.extend second).parse
  have hTwo := RuleSet.constructs_walk_append_inert hInert none 0 first second
  have hOne := RuleSet.constructs_walk_append_inert hInert none 0 first []
  rw [RuleSet.walk.eq_1] at hOne
  obtain ⟨hFirst, hFirstParser⟩ : _ ∧ (alone first).parser = _ :=
    Parser.parse_start first .empty
  obtain ⟨hSecond, hSecondParser⟩ : _ ∧ (alone second).parser = _ :=
    Parser.parse_start second .empty
  obtain ⟨hWhole, hWholeParser⟩ : _ ∧ whole.parser = _ :=
    Parser.parse_start (first ++ inert :: second) table
  obtain ⟨hHalfway, hHalfwayParser⟩ : _ ∧ halfway.parser = _ :=
    Parser.parse_start (first ++ [inert]) table
  obtain ⟨hFurther, hFurtherParser⟩ := Parser.parse_extend_inert hInert first second
    (table.registerAll
      ((RuleSet.walk {} none 0 (first ++ [inert])).constructs.filterMap (·.symbol)))
  rw [← hHalfwayParser] at hFurther hFurtherParser
  rw [hTwo, List.map_append] at hWhole
  rw [hTwo, List.filterMap_append] at hWholeParser
  rw [hOne, List.map_append] at hHalfway
  rw [hOne, List.filterMap_append] at hFurtherParser
  refine ⟨_, _, hFirst, hSecond, hWhole, ?_, ?_, ?_⟩
  · rw [hWholeParser, hFirstParser, hSecondParser]
    rfl
  · change [halfway.nodes, further.nodes] = _
    rw [hHalfway, hFurther]
    rfl
  · change further.parser = whole.parser
    rw [hFurtherParser, hWholeParser]
    simp [SymbolTable.registerAll, Construct.single]

/-- A semicolon between two declarations, the first of which is documented. -/
theorem inert_token_separates_parses_semicolon :
    let first : List Token :=
      [⟨.comment, "note", 1, 1⟩, ⟨.identifier, "int", 2, 1⟩, ⟨.identifier, "x", 2, 5⟩]
    let second : List Token := [⟨.identifier, "int", 3, 1⟩, ⟨.identifier, "y", 3, 5⟩]
    let inert : Token := ⟨.symbol, ";", 2, 6⟩
    let whole := ({ tokens := first ++ inert :: second } : Parser).parse
    inert.IsInert ∧
      whole.parser.table.symbols =
        [⟨.binding, "x", ⟨2, 5⟩, "note"⟩, ⟨.binding, "y", ⟨3, 5⟩, ""⟩] ∧
      (({ tokens := first ++ [inert] } : Parser).serveAll [.parse, .extend second, .parse]).2 =
        whole.parser := by
  intro first second inert whole
  have hInert : inert.IsInert := ⟨.inl rfl, by decide⟩
  obtain ⟨-, -, -, -, -, hTable, -, hSame⟩ :=
    inert_token_separates_parses .empty first second hInert
  refine ⟨hInert, ?_, hSame⟩
  have hSymbols := congrArg SymbolTable.symbols hTable
  rw [show whole.parser.table.symbols = _ from hSymbols]
  decide +kernel

end FlatSyntax
