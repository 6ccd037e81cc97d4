import FlatSyntax.Proofs.Parser.Registration

/-! How far a parse gets. Rules may be pinned in front of the built-in forms, and such a rule may
report any number of tokens: less than one stops the parse where it stands, and more than are left
ends it behind the buffer. What was taken before that is kept, apart from the nodes. -/
namespace FlatSyntax

namespace Parser

/-- `parser.Takes index constructs stop` says that from an index on the first rules that decide
build the given constructs, each of which takes at least one token, and that `stop` is reached
behind them. Behind the last token no rule is asked. -/
inductive Takes (parser : Parser) : Nat → List Construct → Nat → Prop where
  | nil (index : Nat) : Takes parser index [] index
  | cons {index stop : Nat} {construct : Construct} {more : List Construct}
      (hInside : index < parser.tokens.length)
      (hConstruct : parser.construct? index = some construct) (hWidth : 1 ≤ construct.width)
      (hMore : Takes parser (index + construct.width.toNat) more stop) :
      Takes parser index (construct :: more) stop

/-- The first rule that decides at an index of the buffer builds a node of the given kind and takes
no token. -/
structure StallsAt (parser : Parser) (index : Nat) (kind : NodeKind) : Prop where
  hInside : index < parser.tokens.length
  hConstruct : ∃ construct, parser.construct? index = some construct ∧
    construct.node.kind = kind ∧ construct.width < 1

/-- The parser behind constructs that it has taken, with all that they declare registered. -/
def behind (parser : Parser) (constructs : List Construct) (cursor : Nat) : Parser :=
  { parser with
    cursor, table := parser.table.registerAll (constructs.filterMap (·.symbol)) }

/-- The walk from an index to the end of the buffer. -/
def walkFrom (parser : Parser) (index : Nat) : Walk :=
  parser.rules.walk (parser.before index) index (parser.tokens.drop index)

variable {parser : Parser} {index stop : Nat} {constructs : List Construct} {kind : NodeKind}

theorem Takes.le (hTakes : parser.Takes index constructs stop) : index ≤ stop := by
  induction hTakes with
  | nil index => exact Nat.le_refl index
  | cons _ _ _ _ ih => exact Nat.le_trans (Nat.le_add_right _ _) ih

/-- Every construct takes a token that is still in the buffer. -/
theorem Takes.length_le (hTakes : parser.Takes index constructs stop) :
    constructs.length ≤ parser.tokens.length - index := by
  induction hTakes with
  | nil index => exact Nat.zero_le _
  | cons hInside _ hWidth _ ih =>
      rw [List.length_cons]
      omega

/-- Only a pinned rule takes no token: the first of those pinned at the index. -/
theorem stallsAt_iff :
    parser.StallsAt index kind ↔
      index < parser.tokens.length ∧
        ∃ rule, parser.rules.pinned.find? (·.index == index) = some rule ∧ rule.kind = kind ∧
          rule.width < 1 := by
  constructor
  · rintro ⟨hInside, construct, hConstruct, hKind, hWidth⟩
    refine ⟨hInside, ?_⟩
    unfold construct? RuleSet.construct? RuleSet.pinnedConstruct? at hConstruct
    cases hRule : parser.rules.pinned.find? (·.index == index) with
    | some rule =>
        rw [hRule] at hConstruct
        cases hConstruct
        exact ⟨rule, rfl, hKind, hWidth⟩
    | none =>
        rw [hRule] at hConstruct
        obtain ⟨form, -, rfl⟩ := Option.map_eq_some_iff.mp hConstruct
        have hOne := form.one_le_width
        rw [Form.width_construct] at hWidth
        omega
  · rintro ⟨hInside, rule, hRule, rfl, hWidth⟩
    refine ⟨hInside, { node := { kind := rule.kind }, width := rule.width }, ?_, rfl, hWidth⟩
    simp only [construct?, RuleSet.construct?, RuleSet.pinnedConstruct?, hRule, Option.map_some]

theorem walkFrom_of_length_le (hEnd : parser.tokens.length ≤ index) :
    parser.walkFrom index = ⟨[], .finished index⟩ := by
  rw [walkFrom, List.drop_eq_nil_of_le hEnd, RuleSet.walk]

theorem StallsAt.walkFrom (hStalls : parser.StallsAt index kind) :
    parser.walkFrom index = ⟨[], .stalled index kind⟩ := by
  obtain ⟨hInside, construct, hConstruct, rfl, hWidth⟩ := hStalls
  unfold construct? at hConstruct
  rw [Parser.walkFrom]
  rw [List.drop_eq_getElem_cons hInside] at hConstruct ⊢
  rw [RuleSet.walk, hConstruct]
  exact if_pos hWidth

theorem walkFrom_of_construct? {construct : Construct} (hInside : index < parser.tokens.length)
    (hConstruct : parser.construct? index = some construct) (hWidth : 1 ≤ construct.width) :
    let further := parser.walkFrom (index + construct.width.toNat)
    parser.walkFrom index = ⟨construct :: further.constructs, further.ending⟩ := by
  have hWindow : parser.tokens.drop index ≠ [] := by
    rw [ne_eq, List.drop_eq_nil_iff]
    omega
  have hOne : 1 ≤ construct.width.toNat := by omega
  unfold walkFrom
  rw [RuleSet.walk_of_construct? hWindow hConstruct hWidth, ← before_add parser index hOne,
    List.drop_drop]

/-- A walk meets what the rules take and goes on behind it. -/
theorem Takes.walkFrom (hTakes : parser.Takes index constructs stop) :
    let further := parser.walkFrom stop
    parser.walkFrom index = ⟨constructs ++ further.constructs, further.ending⟩ := by
  induction hTakes with
  | nil index => rfl
  | cons hInside hConstruct hWidth _ ih =>
      rw [walkFrom_of_construct? hInside hConstruct hWidth, ih]
      rfl

/-- From every index the rules take what they can: up to the end of the buffer, or up to a rule
that takes no token. -/
theorem exists_takes (parser : Parser) (index : Nat) :
    ∃ constructs stop, parser.Takes index constructs stop ∧
      (parser.tokens.length ≤ stop ∨ ∃ kind, parser.StallsAt stop kind) := by
  generalize hLeft : parser.tokens.length - index = left
  induction left using Nat.strongRecOn generalizing index with
  | ind left ih =>
      by_cases hInside : index < parser.tokens.length
      · have hSome : parser.construct? index ≠ none := by
          rw [construct?, List.drop_eq_getElem_cons hInside]
          exact RuleSet.construct?_cons_ne_none _ _ _ _ _
        obtain ⟨construct, hConstruct⟩ := Option.ne_none_iff_exists'.mp hSome
        by_cases hWidth : 1 ≤ construct.width
        · obtain ⟨more, stop, hMore, hEnd⟩ :=
            ih (parser.tokens.length - (index + construct.width.toNat)) (by omega) _ rfl
          exact ⟨construct :: more, stop, .cons hInside hConstruct hWidth hMore, hEnd⟩
        · have hNone : construct.width < 1 := by omega
          exact ⟨[], index, .nil index, .inr ⟨_, hInside, construct, hConstruct, rfl, hNone⟩⟩
      · exact ⟨[], index, .nil index, .inl (by omega)⟩

/-- A parse that reaches a rule which takes no token fails there. -/
theorem Takes.parse_of_stallsAt (hTakes : parser.Takes parser.cursor constructs stop)
    (hStalls : parser.StallsAt stop kind) :
    parser.parse.nodes = .error (parser.stallDiagnostic stop kind) ∧
      parser.parse.parser = parser.behind constructs stop := by
  have hWalk : parser.walk = ⟨constructs, .stalled stop kind⟩ := by
    have hWalk : parser.walk = _ := hTakes.walkFrom
    rw [hWalk, hStalls.walkFrom, List.append_nil]
  rw [parse, hWalk]
  exact ⟨rfl, rfl⟩

/-- A parse that reaches the end of the buffer returns a node for each construct. -/
theorem Takes.parse_of_length_le (hTakes : parser.Takes parser.cursor constructs stop)
    (hEnd : parser.tokens.length ≤ stop) :
    parser.parse.nodes = .ok (constructs.map (·.node)) ∧
      parser.parse.parser = parser.behind constructs stop := by
  have hWalk : parser.walk = ⟨constructs, .finished stop⟩ := by
    have hWalk : parser.walk = _ := hTakes.walkFrom
    rw [hWalk, walkFrom_of_length_le hEnd, List.append_nil]
  rw [parse, hWalk]
  exact ⟨rfl, rfl⟩

end Parser

/-- Whatever rules are pinned in front of the built-in ones, and wherever the cursor stands, a parse
comes to an end after at most one construct for each token that is left. It fails exactly where it
reaches an index of the buffer at which the first rule that decides takes no token, and only a
pinned rule does that. Then the diagnostic tells that index and the length of the buffer, the cursor
stands at the index, and just the constructs before it are registered. Otherwise a node is returned
for each construct, and the cursor stands at the end of the buffer or behind it. The cursor never
moves back. -/
theorem parse_fails_where_rule_takes_nothing (parser : Parser) :
    let parsed := parser.parse
    ((∃ diagnostic, parsed.nodes = .error diagnostic) ↔
      ∃ constructs index kind, parser.Takes parser.cursor constructs index ∧
        parser.StallsAt index kind) ∧
      (∀ index kind, parser.StallsAt index kind ↔
        index < parser.tokens.length ∧
          ∃ rule, parser.rules.pinned.find? (·.index == index) = some rule ∧ rule.kind = kind ∧
            rule.width < 1) ∧
      (∀ constructs index kind, parser.Takes parser.cursor constructs index →
        parser.StallsAt index kind →
        parsed.nodes = .error
            { problem :=
                .parserStalled ("rule for " ++ kind.name ++ " consumed no tokens") index
                  parser.tokens.length } ∧
          parsed.parser = parser.behind constructs index) ∧
      (∀ nodes, parsed.nodes = .ok nodes →
        ∃ constructs stop, parser.Takes parser.cursor constructs stop ∧
          parser.tokens.length ≤ stop ∧ nodes = constructs.map (·.node) ∧
          parsed.parser = parser.behind constructs stop) ∧
      (∀ constructs stop, parser.Takes parser.cursor constructs stop →
        constructs.length ≤ parser.tokens.length - parser.cursor) ∧
      parser.cursor ≤ parsed.parser.cursor := by
  intro parsed
  obtain ⟨constructs, stop, hTakes, hEnd⟩ := parser.exists_takes parser.cursor
  have hOrder := hTakes.le
  refine ⟨?_, fun _ _ => Parser.stallsAt_iff, fun _ _ _ => Parser.Takes.parse_of_stallsAt, ?_,
    fun _ _ => Parser.Takes.length_le, ?_⟩
  · constructor
    · rintro ⟨diagnostic, hFailed⟩
      rcases hEnd with hEnd | ⟨kind, hStalls⟩
      · have hNodes : parsed.nodes = _ := (hTakes.parse_of_length_le hEnd).1
        rw [hNodes] at hFailed
        cases hFailed
      · exact ⟨constructs, stop, kind, hTakes, hStalls⟩
    · rintro ⟨_, _, _, hReached, hStalls⟩
      exact ⟨_, (hReached.parse_of_stallsAt hStalls).1⟩
  · intro nodes hReturned
    rcases hEnd with hEnd | ⟨kind, hStalls⟩
    · obtain ⟨hNodes, hParser⟩ := hTakes.parse_of_length_le hEnd
      have hSame : Except.ok nodes = .ok (constructs.map (·.node)) := hReturned.symm.trans hNodes
      cases hSame
      exact ⟨constructs, stop, hTakes, hEnd, rfl, hParser⟩
    · have hNodes : parsed.nodes = _ := (hTakes.parse_of_stallsAt hStalls).1
      rw [hNodes] at hReturned
      cases hReturned
  · rcases hEnd with hEnd | ⟨kind, hStalls⟩
    · rw [show parsed.parser = _ from (hTakes.parse_of_length_le hEnd).2]
      exact hOrder
    · rw [show parsed.parser = _ from (hTakes.parse_of_stallsAt hStalls).2]
      exact hOrder

/-- A rule that takes no token behind a declaration: the declaration stays registered. -/
theorem parse_fails_where_rule_takes_nothing_negative :
    let type : Token := ⟨.identifier, "int", 1, 1⟩
    let name : Token := ⟨.identifier, "x", 1, 5⟩
    let parser : Parser :=
      { tokens := [type, name, ⟨.symbol, ";", 1, 6⟩]
        rules := { pinned := [⟨2, .reference, -1⟩] } }
    let declared : Construct := Form.plainVariable.construct none [type, name]
    parser.Takes 0 [declared] 2 ∧ parser.StallsAt 2 .reference ∧
      parser.parse.nodes =
        .error { problem := .parserStalled "rule for REF consumed no tokens" 2 3 } ∧
      (parser.parse.parser.cursor, parser.parse.parser.table.symbols) =
        (2, [⟨.binding, "x", ⟨1, 5⟩, ""⟩]) := by
  intro type name parser declared
  have hTakes : parser.Takes 0 [declared] 2 :=
    .cons (by decide) (by decide +kernel) (by decide) (.nil 2)
  have hStalls : parser.StallsAt 2 .reference := ⟨by decide, _, rfl, rfl, by decide⟩
  obtain ⟨-, -, hFails, -⟩ := parse_fails_where_rule_takes_nothing parser
  obtain ⟨hNodes, hParser⟩ := hFails [declared] 2 .reference hTakes hStalls
  refine ⟨hTakes, hStalls, hNodes, ?_⟩
  rw [hParser]
  decide +kernel

end FlatSyntax
