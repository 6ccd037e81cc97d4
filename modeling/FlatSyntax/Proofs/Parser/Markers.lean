import FlatSyntax.Proofs.Analysis
import FlatSyntax.Proofs.Parser.Registration
import FlatSyntax.Proofs.Scanner.Layout

/-! Static execution markers. A scan finds a marker only right before a square group, and what
stands behind a marker in the token list is that group. So the parser never meets a marker alone,
and without pairs it makes one static execution of each marker. -/
namespace FlatSyntax

/-- A marker and the square group that it marks. -/
structure Token.MarksGroup (marker group : Token) : Prop where
  hValue : marker.value = "$"
  hGroup : group.kind = .square
  hLine : group.line = marker.line
  hColumn : group.column = marker.column + 1

/-- Directly behind every marker of a token list stands the group that it marks. -/
def MarkersPaired (tokens : List Token) : Prop :=
  ∀ marker more, marker :: more <:+ tokens → marker.kind = .staticMarker →
    ∃ group, more.head? = some group ∧ marker.MarksGroup group

/-- Sites at which each marker is executed once. A marker is a window by itself; the node there
shows the group, which is the first token of the next window. At no other site there is a marker or
an execution. -/
inductive ExecutesMarkers : List Site → Prop where
  | nil : ExecutesMarkers []
  | marker {marker group : Token} {previous : Option Token} {next : Site} {sites : List Site}
      (hMarker : marker.kind = .staticMarker) (hMarks : marker.MarksGroup group)
      (hNext : next.window.head? = some group) (hMore : ExecutesMarkers (next :: sites)) :
      ExecutesMarkers
        ({ node := { kind := .staticExecution, tokens := [group] }
           window := [marker]
           previous } :: next :: sites)
  | other {site : Site} {sites : List Site}
      (hWindow : ∀ token ∈ site.window, token.kind ≠ .staticMarker)
      (hNode : site.node.kind ≠ .staticExecution) (hMore : ExecutesMarkers sites) :
      ExecutesMarkers (site :: sites)

/-- Where each marker is executed once, there are as many executions as markers. -/
theorem ExecutesMarkers.countP_node {sites : List Site} (hExecutes : ExecutesMarkers sites) :
    (sites.map (·.node)).countP (·.kind == .staticExecution) =
      (sites.flatMap (·.window)).countP (·.kind == .staticMarker) := by
  induction hExecutes with
  | nil => rfl
  | marker hMarker _ _ _ ih =>
      rw [List.map_cons, List.countP_cons_of_pos rfl, ih]
      exact (List.countP_cons_of_pos (p := fun token : Token => token.kind == .staticMarker)
        (beq_iff_eq.mpr hMarker)).symm
  | @other site sites hWindow hNode _ ih =>
      have hNone : ∀ token ∈ site.window, ¬ (token.kind == .staticMarker) = true :=
        fun token hMem => mt beq_iff_eq.mp (hWindow token hMem)
      have hOther : ¬ (site.node.kind == .staticExecution) = true := mt beq_iff_eq.mp hNode
      rw [List.map_cons,
        List.countP_cons_of_neg (p := fun node : Node => node.kind == .staticExecution) hOther, ih,
        List.flatMap_cons, List.countP_append, List.countP_eq_zero.mpr hNone, Nat.zero_add]

namespace MarkersPaired

variable {tokens : List Token}

theorem drop (hPaired : MarkersPaired tokens) (index : Nat) : MarkersPaired (tokens.drop index) :=
  fun marker more hSuffix => hPaired marker more (hSuffix.trans (List.drop_suffix index tokens))

theorem value_of_mem (hPaired : MarkersPaired tokens) {token : Token} (hMem : token ∈ tokens)
    (hMarker : token.kind = .staticMarker) : token.value = "$" := by
  obtain ⟨front, more, rfl⟩ := List.append_of_mem hMem
  obtain ⟨_, -, hMarks⟩ := hPaired token more (List.suffix_append front _) hMarker
  exact hMarks.hValue

end MarkersPaired

/-- A layout pairs its markers: a marker is read only where a square bracket comes next. -/
theorem Laid.markersPaired {text before : List Char} {first : Int} {afterWord : Bool}
    {tiles : List Tile} (hLaid : Laid text first before afterWord tiles) :
    MarkersPaired (tiles.map Tile.token) := by
  rintro marker more ⟨front, hTokens⟩ hMarker
  obtain ⟨earlier, _, rfl, -, hBehind⟩ := List.map_eq_append_iff.mp hTokens.symm
  obtain ⟨tile, later, rfl, rfl, rfl⟩ := List.map_eq_cons_iff.mp hBehind
  obtain ⟨start, _, hAt⟩ := hLaid.suffix
  cases hAt with
  | tile hText _ _ hRead hPosition hMore =>
      obtain ⟨hSpells, hStops⟩ := hRead.wellSpelled
      rw [hMarker] at hSpells hStops
      obtain ⟨hRaw, hDollar⟩ : tile.raw = tile.token.value.toList ∧ tile.raw = ['$'] := hSpells
      obtain ⟨rest, rfl⟩ := List.head?_eq_some_iff.mp hStops
      obtain ⟨group, further, rfl, hSquare, hPlace⟩ := hMore.exists_square hText
      have hNext : group.token.position =
          { line := tile.token.line, column := tile.token.column + 1 } := by
        have hAt : text[(start ++ tile.gap).length]? = some '$' := by
          rw [hText, hDollar, List.append_assoc, List.getElem?_append_right (Nat.le_refl _),
            Nat.sub_self]
          rfl
        have hOther : text[(start ++ tile.gap).length]? ≠ some '\n' := by
          rw [hAt]
          decide
        rw [hPlace, List.length_append, hDollar, List.length_singleton,
          Text.positionAt_succ_of_ne first hOther, ← hPosition]
        rfl
      obtain ⟨hLine, hColumn⟩ := Position.mk.inj hNext
      refine ⟨group.token, rfl, ?_, hSquare, hLine, hColumn⟩
      rw [← String.toList_inj, ← hRaw, hDollar]
      rfl

/-- A text that scans without a problem has its markers paired. -/
theorem markersPaired_scanSource {source file : String} {line : Int}
    (hClean : (scanSource source file line).problem = none) :
    MarkersPaired (scanSource source file line).tokens := by
  have hPaired := (laid_scanSource hClean).markersPaired
  rw [Cursor.tokens_tiles] at hPaired
  exact hPaired

/-- Each token that a pattern takes is admitted by one of its elements. -/
theorem Pattern.exists_admits_of_mem_take {pattern : Pattern} {window : List Token}
    (hFits : pattern.fits window = true) {count : Nat} (hCount : count ≤ pattern.length)
    {token : Token} (hMem : token ∈ window.take count) :
    ∃ element ∈ pattern, element.admits token = true := by
  induction pattern generalizing window count with
  | nil =>
      rw [List.length_nil, Nat.le_zero] at hCount
      rw [hCount, List.take_zero] at hMem
      cases hMem
  | cons element pattern ih =>
      obtain ⟨head, more, rfl, hHead, hMore⟩ := fits_cons_iff.mp hFits
      cases count with
      | zero => cases hMem
      | succ count =>
          rw [List.take_succ_cons, List.mem_cons] at hMem
          rcases hMem with rfl | hMem
          · exact ⟨element, List.mem_cons_self, hHead⟩
          · obtain ⟨other, hOther, hAdmits⟩ := ih hMore (Nat.le_of_succ_le_succ hCount) hMem
            exact ⟨other, List.mem_cons_of_mem element hOther, hAdmits⟩

namespace Form

variable {jsonMode : Bool} {window : List Token} {form : Form}

/-- Every form but that of a marker alone shows a token. -/
theorem captured_ne_nil (hFits : form.trigger.fits window = true) (hLone : form ≠ loneMarker) :
    form.captured window ≠ [] := by
  cases form with
  | loneMarker => exact absurd rfl hLone
  | directive | other =>
      obtain ⟨token, more, rfl, -⟩ := Pattern.fits_cons_iff.mp hFits
      exact List.cons_ne_nil _ _
  | reference | bodyBlock | structCall | plainVariable | codeBlock | staticExecution =>
      obtain ⟨head, last, more, rfl, -⟩ := Pattern.exists_two_of_fits hFits
      exact List.cons_ne_nil _ _
  | jsonPair | structDecl | namespaceDecl | implBlock | headBlock | structVar | genericVariable
  | pointer =>
      obtain ⟨head, name, body, more, rfl, -⟩ := Pattern.exists_three_of_fits hFits
      exact List.cons_ne_nil _ _
  | voidFunction | function =>
      obtain ⟨head, name, parameters, _, rfl, -, -, -, hBody⟩ :=
        Pattern.exists_three_of_fits hFits
      obtain ⟨body, more, rfl, -⟩ := Pattern.fits_cons_iff.mp hBody
      exact List.cons_ne_nil _ _

theorem tokens_construct_ne_nil (hFits : form.trigger.fits window = true)
    (hLone : form ≠ loneMarker) (previous : Option Token) :
    (form.construct previous window).node.tokens ≠ [] := by
  unfold construct
  split
  · unfold includeConstruct
    split <;> exact List.cons_ne_nil _ _
  · exact captured_ne_nil hFits hLone

/-- Where markers are paired, no marker is met alone. -/
theorem ne_loneMarker_of_ofWindow? (hPaired : MarkersPaired window)
    (hForm : ofWindow? jsonMode window = some form) : form ≠ loneMarker := by
  rintro rfl
  obtain ⟨marker, more, rfl, hMarker, -⟩ := Pattern.fits_cons_iff.mp (fits_of_ofWindow? hForm)
  have hKind : marker.kind = .staticMarker := eq_of_beq hMarker
  obtain ⟨group, hGroup, hMarks⟩ := hPaired marker more List.suffix_rfl hKind
  obtain ⟨beyond, rfl⟩ := List.head?_eq_some_iff.mp hGroup
  have hEarlier : staticExecution ∈ all.takeWhile (· != loneMarker) := by decide
  have hOther := not_fits_of_ofWindow? hForm hEarlier
  have hFits : staticExecution.trigger.fits (marker :: group :: beyond) = true := by
    simp [trigger, Pattern.fits, PatternElement.admits, hKind, hMarks.hGroup]
  rw [hFits, Bool.and_true] at hOther
  revert hOther
  cases jsonMode <;> decide

/-- A form other than a pair and a single token asks of each token for a kind that is not that of a
marker or for a value that is not that of a marker, unless it is a form of markers. -/
theorem asks_no_marker : ∀ form ∈ all, form ∉ [jsonPair, other, staticExecution, loneMarker] →
    ∀ element ∈ form.trigger,
      (∃ kind ∈ element.kind?, kind ≠ .staticMarker) ∨ ∃ value ∈ element.value?, value ≠ "$" := by
  decide

/-- Without pairs, no form but that of a static execution takes a marker. -/
theorem not_marker_of_mem_take (hPaired : MarkersPaired window)
    (hForm : ofWindow? false window = some form) (hStatic : form ≠ staticExecution) :
    ∀ token ∈ window.take form.width, token.kind ≠ .staticMarker := by
  intro token hMem hMarker
  have hFits := fits_of_ofWindow? hForm
  have hPair := ne_jsonPair_of_ofWindow? hForm
  have hLone := ne_loneMarker_of_ofWindow? hPaired hForm
  by_cases hOther : form = other
  · subst hOther
    obtain ⟨head, more, rfl, -⟩ := Pattern.fits_cons_iff.mp hFits
    obtain rfl : token = head := List.mem_singleton.mp hMem
    have hEarlier : loneMarker ∈ all.takeWhile (· != other) := by decide
    have hAlone := not_fits_of_ofWindow? hForm hEarlier
    simp [enabled, trigger, Pattern.fits, PatternElement.admits, hMarker] at hAlone
  · obtain ⟨element, hElement, hAdmits⟩ :=
      Pattern.exists_admits_of_mem_take hFits (width_le_trigger_length form) hMem
    have hValue := hPaired.value_of_mem (List.mem_of_mem_take hMem) hMarker
    rcases asks_no_marker form (mem_all form) (by simp [hPair, hOther, hStatic, hLone]) element
      hElement with ⟨kind, hKind, hNot⟩ | ⟨value, hAsked, hNot⟩
    · exact hNot ((PatternElement.kind_of_admits hAdmits kind hKind).symm.trans hMarker)
    · exact hNot ((PatternElement.value_of_admits hAdmits value hAsked).symm.trans hValue)

theorem eq_staticExecution_of_kind_construct {previous : Option Token}
    (hKind : (form.construct previous window).node.kind = .staticExecution) :
    form = staticExecution := by
  rcases kind_construct form previous window with hSame | ⟨-, hLocal⟩
  · rw [hSame] at hKind
    cases form <;> first | rfl | cases hKind
  · rw [hLocal] at hKind
    cases hKind

end Form

namespace Parser

variable {parser : Parser}

/-- The window of the first site starts with the first token. -/
theorem exists_site (hPinned : parser.rules.pinned = []) {index : Nat} {window : List Token}
    (hWindow : parser.tokens.drop index = window) {token : Token}
    (hHead : window.head? = some token) :
    ∃ site sites,
      parser.sites index (parser.rules.walk (parser.before index) index window).constructs =
        site :: sites ∧ site.window.head? = some token := by
  obtain ⟨more, rfl⟩ := List.head?_eq_some_iff.mp hHead
  obtain ⟨form, hForm⟩ := Form.exists_ofWindow? parser.rules.jsonMode token more
  refine ⟨_, _, sites_walk hPinned hWindow hForm, ?_⟩
  obtain ⟨beyond, hBeyond⟩ := Nat.exists_eq_add_of_le' (Form.one_le_width form)
  rw [Form.site, hBeyond]
  rfl

/-- A walk without pairs over paired markers executes each marker once. -/
theorem executesMarkers_walk (hRules : parser.rules = {}) (index : Nat)
    (hPaired : MarkersPaired (parser.tokens.drop index)) :
    let walk := parser.rules.walk (parser.before index) index (parser.tokens.drop index)
    ExecutesMarkers (parser.sites index walk.constructs) := by
  have hPinned : parser.rules.pinned = [] := by rw [hRules]
  generalize hWindow : parser.tokens.drop index = window at hPaired
  induction window using Form.induction_ofWindow? false generalizing index with
  | hNil =>
      rw [RuleSet.walk]
      exact .nil
  | hForm window form hForm ih =>
      have hBeyond : parser.tokens.drop (index + form.width) = window.drop form.width := by
        rw [← hWindow, List.drop_drop]
      have hMore := ih (index + form.width) hBeyond (hPaired.drop form.width)
      have hFound : Form.ofWindow? parser.rules.jsonMode window = some form := by
        rw [hRules]
        exact hForm
      simp only [sites_walk hPinned hWindow hFound]
      by_cases hStatic : form = .staticExecution
      · subst hStatic
        obtain ⟨marker, group, more, rfl, hMarker, -, -⟩ :=
          Pattern.exists_two_of_fits (Form.fits_of_ofWindow? hForm)
        have hKind : marker.kind = .staticMarker := eq_of_beq hMarker
        obtain ⟨_, hGroup, hMarks⟩ := hPaired marker _ List.suffix_rfl hKind
        cases hGroup
        -- the form takes the marker alone, so its group comes first in what is left
        obtain ⟨next, sites, hSites, hNext⟩ := exists_site hPinned hBeyond rfl
        simp only [hSites] at hMore ⊢
        exact .marker hKind hMarks hNext hMore
      · refine .other (Form.not_marker_of_mem_take hPaired hForm hStatic) ?_ hMore
        exact fun hNode => hStatic (Form.eq_staticExecution_of_kind_construct hNode)

/-- A walk over paired markers leaves no node empty. -/
theorem tokens_node_walk_ne_nil (hPinned : parser.rules.pinned = []) (previous : Option Token)
    (index : Nat) {window : List Token} (hPaired : MarkersPaired window) :
    ∀ construct ∈ (parser.rules.walk previous index window).constructs,
      construct.node.tokens ≠ [] := by
  induction window using Form.induction_ofWindow? parser.rules.jsonMode
    generalizing previous index with
  | hNil =>
      rw [RuleSet.walk]
      exact fun _ hMem => absurd hMem List.not_mem_nil
  | hForm window form hForm ih =>
      rw [RuleSet.walk_of_ofWindow? hPinned hForm]
      have hLone := Form.ne_loneMarker_of_ofWindow? hPaired hForm
      have hHead := Form.tokens_construct_ne_nil (Form.fits_of_ofWindow? hForm) hLone previous
      exact List.forall_mem_cons.mpr ⟨hHead, ih _ _ (hPaired.drop form.width)⟩

end Parser

/-- In a source text that scans without a problem every marker is directly followed by its group, a
square group that starts in the next column of the same line. So nowhere in the tokens is a marker
alone recognized, and no analysis has a node without tokens. Without pairs, every marker becomes one
static execution, which shows the group; the group is then the first token of the next window. -/
theorem markers_are_paired_and_executed {source file : String} {line : Int}
    (hClean : (scanSource source file line).problem = none) :
    let tokens := (scanSource source file line).tokens
    MarkersPaired tokens ∧
      ∀ jsonMode,
        let parser : Parser := { tokens, rules := { jsonMode } }
        let sites := parser.sites 0 parser.parse.constructs
        let nodes := sites.map (·.node)
        (∀ index, Form.ofWindow? jsonMode (tokens.drop index) ≠ some .loneMarker) ∧
          (∃ analysis, Analysis.ofTokens tokens file jsonMode = .ok analysis ∧
            (line = 1 → Analysis.ofSource source file jsonMode = .ok analysis) ∧
            analysis.nodes = nodes) ∧
          (∀ node ∈ nodes, node.tokens ≠ []) ∧
          sites.flatMap Site.window = tokens ∧
          (jsonMode = false →
            ExecutesMarkers sites ∧
              nodes.countP (·.kind == .staticExecution) =
                tokens.countP (·.kind == .staticMarker)) := by
  intro tokens
  have hPaired : MarkersPaired tokens := markersPaired_scanSource hClean
  refine ⟨hPaired, fun jsonMode => ?_⟩
  intro parser sites nodes
  have hPinned : parser.rules.pinned = [] := rfl
  have hSites : sites = parser.sites 0 parser.walk.constructs :=
    congrArg (parser.sites 0) (Parser.constructs_parse parser)
  have hNodes : nodes = parser.walk.constructs.map (·.node) := by
    rw [← Parser.constructs_parse]
    exact Parser.node_sites parser 0 parser.parse.constructs
  have hWindows : sites.flatMap Site.window = tokens := by
    rw [hSites]
    exact (Parser.registers_walk hPinned 0).1
  refine ⟨fun index hForm => ?_, ?_, ?_, hWindows, ?_⟩
  · exact Form.ne_loneMarker_of_ofWindow? (hPaired.drop index) hForm rfl
  · obtain ⟨analysis, hAnalysis, hSame, -⟩ := Analysis.exists_ofTokens tokens file jsonMode
    refine ⟨analysis, hAnalysis, ?_, hSame.trans hNodes.symm⟩
    rintro rfl
    exact (Analysis.ofSource_of_clean hClean jsonMode).trans hAnalysis
  · rw [hNodes]
    exact List.forall_mem_map.mpr (Parser.tokens_node_walk_ne_nil hPinned none 0 hPaired)
  · rintro rfl
    have hExecutes : ExecutesMarkers sites := by
      rw [hSites]
      exact Parser.executesMarkers_walk rfl 0 hPaired
    refine ⟨hExecutes, ?_⟩
    rw [← hWindows]
    exact hExecutes.countP_node

/-- A marker whose group might be taken for the colon of a pair. -/
theorem markers_are_paired_and_executed_colon :
    let tokens : List Token :=
      [⟨.staticMarker, "$", 1, 1⟩, ⟨.square, ":", 1, 2⟩, ⟨.identifier, "x", 1, 6⟩]
    let parser : Parser := { tokens }
    let sites := parser.sites 0 parser.parse.constructs
    (scanSource "$[:] x" "" 1).problem = none ∧ (scanSource "$[:] x" "" 1).tokens = tokens ∧
      MarkersPaired tokens ∧ ExecutesMarkers sites ∧
      sites.map (·.node) =
        [⟨.staticExecution, [⟨.square, ":", 1, 2⟩]⟩, ⟨.other, [⟨.square, ":", 1, 2⟩]⟩,
          ⟨.other, [⟨.identifier, "x", 1, 6⟩]⟩] := by
  intro tokens parser sites
  have hClean : (scanSource "$[:] x" "" 1).problem = none := by decide +kernel
  have hTokens : (scanSource "$[:] x" "" 1).tokens = tokens := by decide +kernel
  obtain ⟨hPaired, hModes⟩ := markers_are_paired_and_executed hClean
  obtain ⟨-, -, -, -, hExecutes⟩ := hModes false
  rw [hTokens] at hPaired hExecutes
  exact ⟨hClean, hTokens, hPaired, (hExecutes rfl).1, by decide +kernel⟩

end FlatSyntax
