import FlatSyntax.Analysis
import FlatSyntax.Proofs.Parser.Recognition

/-! Analyses as walks. Once a source text has its tokens nothing can fail any more, and what an
analysis holds is told by one walk over them. -/
namespace FlatSyntax.Analysis

variable {source file : String}

theorem tokensOf_of_problem {diagnostic : Diagnostic}
    (hProblem : (scanSource source file 1).problem = some diagnostic) :
    tokensOf source file = .error diagnostic := by
  simp only [tokensOf, hProblem]

theorem tokensOf_of_clean (hClean : (scanSource source file 1).problem = none) :
    tokensOf source file = .ok (scanSource source file 1).tokens := by
  simp only [tokensOf, hClean]

/-- No analysis fails that has its tokens. Its nodes and its symbols are those of one walk. -/
theorem exists_ofTokens (tokens : List Token) (file : String) (jsonMode : Bool) :
    let walk := RuleSet.walk { jsonMode } none 0 tokens
    ∃ analysis, ofTokens tokens file jsonMode = .ok analysis ∧
      analysis.nodes = walk.constructs.map (·.node) ∧
      analysis.table.symbols = walk.constructs.filterMap (·.symbol) := by
  intro walk
  let parser : Parser := { tokens, rules := { jsonMode } }
  have hNodes : parser.parse.nodes = .ok (walk.constructs.map (·.node)) := Parser.nodes_parse rfl
  have hSymbols : parser.parse.parser.table.symbols = walk.constructs.filterMap (·.symbol) := by
    rw [Parser.table_parse, SymbolTable.symbols_registerAll]
    exact List.nil_append _
  unfold ofTokens
  simp only [parser] at hNodes
  simp only [hNodes]
  exact ⟨_, rfl, rfl, hSymbols⟩

theorem ofSource_of_clean (hClean : (scanSource source file 1).problem = none) (jsonMode : Bool) :
    ofSource source file jsonMode = ofTokens (scanSource source file 1).tokens file jsonMode := by
  simp only [ofSource, tokensOf_of_clean hClean]

/-- A source text that is analyzed was scanned without a problem, and the symbols are those of one
walk over its tokens. -/
theorem exists_walk {jsonMode : Bool} {analysis : Analysis}
    (hAnalysis : ofSource source file jsonMode = .ok analysis) :
    (scanSource source file 1).problem = none ∧
      analysis.table.symbols =
        (RuleSet.walk { jsonMode } none 0 (scanSource source file 1).tokens).constructs.filterMap
          (·.symbol) := by
  cases hProblem : (scanSource source file 1).problem with
  | some diagnostic =>
      simp only [ofSource, tokensOf_of_problem hProblem] at hAnalysis
      cases hAnalysis
  | none =>
      rw [ofSource_of_clean hProblem] at hAnalysis
      obtain ⟨_, hSame, -, hSymbols⟩ :=
        exists_ofTokens (scanSource source file 1).tokens file jsonMode
      cases hAnalysis.symm.trans hSame
      exact ⟨rfl, hSymbols⟩

theorem tokensOf_of_ofSource {jsonMode : Bool} {analysis : Analysis}
    (hAnalysis : ofSource source file jsonMode = .ok analysis) :
    tokensOf source file = .ok analysis.tokens := by
  obtain ⟨hClean, -⟩ := exists_walk hAnalysis
  rw [ofSource_of_clean hClean, ofTokens] at hAnalysis
  rw [tokensOf_of_clean hClean]
  split at hAnalysis
  · cases hAnalysis
  · cases hAnalysis
    rfl

end FlatSyntax.Analysis
