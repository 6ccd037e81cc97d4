import FlatSyntax.Proofs.Parser.Separation

/-! Lists of pairs. Where pairs are asked for, a pair is recognized before anything else that its
tokens may start. What keeps the windows on the pairs is that no key is a colon: so the comma after
a pair is not taken for a key. -/
namespace FlatSyntax

/-- A key and a value with a colon between them, and the comma behind them if there is one. The
kinds of the first three tokens do not matter, and the value may be a colon or a comma itself. -/
structure Pair where
  key : Token
  colon : Token
  value : Token
  comma : Option Token
  hKey : key.value ≠ ":"
  hColon : colon.value = ":"
  hComma : ∀ token ∈ comma, token.kind = .symbol ∧ token.value = ","

namespace Pair

def tokens (pair : Pair) : List Token :=
  pair.key :: pair.colon :: pair.value :: pair.comma.toList

/-- The construct of a key with its value. -/
def construct (pair : Pair) : Construct :=
  { node := { kind := .jsonPair, tokens := [pair.key, pair.value] }, width := 3 }

/-- The constructs of a pair and of its comma. -/
def constructs (pair : Pair) : List Construct :=
  pair.construct :: pair.comma.toList.map .single

/-- The nodes of a pair and of its comma. -/
def nodes (pair : Pair) : List Node :=
  { kind := .jsonPair, tokens := [pair.key, pair.value] } ::
    pair.comma.toList.map fun comma => { kind := .other, tokens := [comma] }

theorem isInert_comma (pair : Pair) : ∀ comma ∈ pair.comma, comma.IsInert := by
  intro comma hMem
  obtain ⟨hKind, hValue⟩ := pair.hComma comma hMem
  refine ⟨.inl hKind, ?_⟩
  rw [hValue]
  decide

theorem map_node_constructs (pair : Pair) : pair.constructs.map (·.node) = pair.nodes := by
  simp [constructs, nodes, construct, Construct.single, Function.comp_def]

theorem symbol_of_mem_constructs (pair : Pair) :
    ∀ construct ∈ pair.constructs, construct.symbol = none := by
  simp [constructs, construct, Construct.single]

end Pair

namespace Form

/-- A pair is recognized whatever else its tokens start. -/
theorem ofWindow?_pair (pair : Pair) (more : List Token) :
    ofWindow? true (pair.key :: pair.colon :: pair.value :: more) = some jsonPair := by
  refine List.find?_cons_of_pos ?_
  simp [enabled, trigger, Pattern.fits, PatternElement.admits, pair.hColon]

/-- Where no pair stands, it makes no difference whether pairs are asked for. -/
theorem ofWindow?_of_not_pair {window : List Token} (hPair : jsonPair.trigger.fits window = false)
    (jsonMode : Bool) : ofWindow? jsonMode window = ofWindow? false window := by
  have hSame (form : Form) :
      (form.enabled jsonMode && form.trigger.fits window) =
        (form.enabled false && form.trigger.fits window) := by
    by_cases hForm : form = jsonPair
    · rw [hForm, hPair, Bool.and_false, Bool.and_false]
    · have hOther : (form != jsonPair) = true := bne_iff_ne.mpr hForm
      rw [enabled, enabled, hOther, Bool.or_true, Bool.or_true]
  simp only [ofWindow?, hSame]

/-- A token in front of pairs is no key: the token behind it is a key, and so no colon. -/
theorem not_fits_before_pairs (token : Token) (pairs : List Pair) :
    jsonPair.trigger.fits (token :: pairs.flatMap Pair.tokens) = false := by
  cases pairs with
  | nil => rfl
  | cons pair more =>
      simp [trigger, Pattern.fits, PatternElement.admits, Pair.tokens, pair.hKey]

end Form

/-- A walk over pairs meets each of them, and each comma by itself. -/
theorem RuleSet.constructs_walk_pairs (pairs : List Pair) (previous : Option Token)
    (index : Nat) :
    (walk { jsonMode := true } previous index (pairs.flatMap Pair.tokens)).constructs =
      pairs.flatMap Pair.constructs := by
  induction pairs generalizing previous index with
  | nil =>
      rw [List.flatMap_nil, walk]
      rfl
  | cons pair more ih =>
      have hPair := Form.ofWindow?_pair pair (pair.comma.toList ++ more.flatMap Pair.tokens)
      simp only [List.flatMap_cons, Pair.tokens, Pair.constructs, List.cons_append]
      rw [walk_of_ofWindow? rfl hPair]
      refine congrArg (pair.construct :: ·) ?_
      cases hComma : pair.comma with
      | none => exact ih _ _
      | some comma =>
          -- the comma stands where the window of the pair ends
          have hOther : Form.ofWindow? true (comma :: more.flatMap Pair.tokens) = some .other := by
            rw [Form.ofWindow?_of_not_pair (Form.not_fits_before_pairs comma more),
              Form.ofWindow?_inert (pair.isInert_comma comma hComma)]
          rw [hComma] at hPair
          change (walk _ _ _ (comma :: more.flatMap Pair.tokens)).constructs = _
          rw [walk_of_ofWindow? rfl hOther]
          exact congrArg (.single comma :: ·) (ih _ _)

/-- Where pairs are asked for, a list of pairs is read as it is written: each key and value become
one node, in order, each comma becomes a node in its place, and nothing is registered. That holds
also for pairs that a parser is given behind a buffer that it has gone through. -/
theorem pairs_are_read_in_order (front : List Token) (table : SymbolTable) (pairs : List Pair) :
    let parser : Parser :=
      { tokens := front ++ pairs.flatMap Pair.tokens, rules := { jsonMode := true }
        cursor := front.length, table }
    parser.parse.nodes = .ok (pairs.flatMap Pair.nodes) ∧
      parser.parse.parser = { parser with cursor := parser.tokens.length } := by
  intro parser
  have hCursor : parser.cursor ≤ parser.tokens.length := by
    simp [parser]
  have hWalk : parser.walk.constructs = pairs.flatMap Pair.constructs := by
    rw [Parser.walk, show parser.tokens.drop parser.cursor = _ from List.drop_left]
    exact RuleSet.constructs_walk_pairs pairs _ _
  have hSymbols : (pairs.flatMap Pair.constructs).filterMap (·.symbol) = [] := by
    rw [List.filterMap_eq_nil_iff]
    intro construct hMem
    obtain ⟨pair, -, hConstruct⟩ := List.mem_flatMap.mp hMem
    exact pair.symbol_of_mem_constructs construct hConstruct
  obtain ⟨hNodes, hParser⟩ := Parser.parse_of_pinned_eq_nil rfl hCursor
  constructor
  · rw [hNodes, hWalk, List.map_flatMap]
    simp only [Pair.map_node_constructs]
  · rw [hParser, hWalk, hSymbols]
    simp [SymbolTable.registerAll]

/-- The keys may start other constructs, and one value is a colon. -/
theorem pairs_are_read_in_order_reserved :
    let ampersand : Token := ⟨.symbol, "&", 1, 1⟩
    let colon : Token := ⟨.symbol, ":", 1, 2⟩
    let comma : Token := ⟨.symbol, ",", 1, 4⟩
    let x : Token := ⟨.identifier, "x", 1, 3⟩
    let struct : Token := ⟨.keyword, "struct", 2, 1⟩
    let pairs : List Pair :=
      [{ key := ampersand, colon, value := x, comma := some comma
         hKey := by decide, hColon := rfl, hComma := by decide },
        { key := struct, colon, value := colon, comma := none
          hKey := by decide, hColon := rfl, hComma := by decide }]
    let tokens := [ampersand, colon, x, comma, struct, colon, colon]
    let parser : Parser := { tokens, rules := { jsonMode := true } }
    pairs.flatMap Pair.tokens = tokens ∧
      parser.parse.nodes =
        .ok [⟨.jsonPair, [ampersand, x]⟩, ⟨.other, [comma]⟩, ⟨.jsonPair, [struct, colon]⟩] ∧
      parser.parse.parser.table.symbols = [] := by
  intro ampersand colon comma x struct pairs tokens parser
  obtain ⟨hNodes, hParser⟩ := pairs_are_read_in_order [] .empty pairs
  exact ⟨rfl, hNodes, congrArg (·.table.symbols) hParser⟩

end FlatSyntax
