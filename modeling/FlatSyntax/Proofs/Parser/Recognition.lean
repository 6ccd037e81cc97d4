import FlatSyntax.Parser
import Mathlib.Data.List.Forall2

/-! Walks by the built-in forms. At each place a form is recognized that fits there, the walk goes
on after the tokens it takes, and it ends at the end of the tokens. -/
namespace FlatSyntax

theorem Pattern.fits_cons_iff {element : PatternElement} {pattern : Pattern} {window : List Token} :
    fits (element :: pattern) window = true ↔
      ∃ token more, window = token :: more ∧ element.admits token = true ∧
        pattern.fits more = true := by
  constructor
  · intro hFits
    cases window with
    | nil => cases hFits
    | cons token more =>
        rw [fits, Bool.and_eq_true] at hFits
        exact ⟨token, more, rfl, hFits.1, hFits.2⟩
  · rintro ⟨token, more, rfl, hToken, hMore⟩
    rw [fits, hToken, hMore]
    rfl

theorem Pattern.exists_two_of_fits {first second : PatternElement} {pattern : Pattern}
    {window : List Token} (hFits : fits (first :: second :: pattern) window = true) :
    ∃ a b more, window = a :: b :: more ∧ first.admits a = true ∧ second.admits b = true ∧
      pattern.fits more = true := by
  obtain ⟨a, tail, rfl, hFirst, hTail⟩ := fits_cons_iff.mp hFits
  obtain ⟨b, more, rfl, hSecond, hMore⟩ := fits_cons_iff.mp hTail
  exact ⟨a, b, more, rfl, hFirst, hSecond, hMore⟩

theorem Pattern.exists_three_of_fits {first second third : PatternElement} {pattern : Pattern}
    {window : List Token} (hFits : fits (first :: second :: third :: pattern) window = true) :
    ∃ a b c more, window = a :: b :: c :: more ∧ first.admits a = true ∧
      second.admits b = true ∧ third.admits c = true ∧ pattern.fits more = true := by
  obtain ⟨a, b, tail, rfl, hFirst, hSecond, hTail⟩ := exists_two_of_fits hFits
  obtain ⟨c, more, rfl, hThird, hMore⟩ := fits_cons_iff.mp hTail
  exact ⟨a, b, c, more, rfl, hFirst, hSecond, hThird, hMore⟩

/-- A pattern looks at as many tokens as it has elements. -/
theorem Pattern.fits_take {pattern : Pattern} {count : Nat} (hCount : pattern.length ≤ count)
    (window : List Token) : pattern.fits (window.take count) = pattern.fits window := by
  induction pattern generalizing window count with
  | nil => rfl
  | cons element pattern ih =>
      obtain ⟨count, rfl⟩ := Nat.exists_eq_add_of_le' hCount
      cases window with
      | nil => rw [List.take_nil]
      | cons token window =>
          rw [List.length_cons, ← Nat.add_assoc, List.take_succ_cons, fits, fits,
            ih (Nat.le_add_left _ _)]

/-- A pattern fits both of two related windows or neither, if none of its elements tells related
tokens apart. -/
theorem Pattern.fits_congr {related : Token → Token → Prop} {pattern : Pattern}
    (hAdmits : ∀ element ∈ pattern, ∀ first second, related first second →
      element.admits first = element.admits second)
    {first second : List Token} (hRelated : List.Forall₂ related first second) :
    pattern.fits first = pattern.fits second := by
  induction pattern generalizing first second with
  | nil => cases hRelated <;> rfl
  | cons element pattern ih =>
      cases hRelated with
      | nil => rfl
      | cons hHead hTail =>
          rw [fits, fits, hAdmits element List.mem_cons_self _ _ hHead,
            ih (fun other hMem => hAdmits other (List.mem_cons_of_mem element hMem)) hTail]

namespace PatternElement

/-- The kind that an element asks for, if it asks for one. -/
def kind? : PatternElement → Option TokenKind
  | kind expected | exactly expected _ => some expected
  | any | value _ => none

/-- The value that an element asks for, if it asks for one. -/
def value? : PatternElement → Option String
  | value expected | exactly _ expected => some expected
  | any | kind _ => none

theorem kind_of_admits {element : PatternElement} {token : Token}
    (hAdmits : element.admits token = true) : ∀ kind ∈ element.kind?, token.kind = kind := by
  intro kind hKind
  cases element with
  | any | value => cases hKind
  | kind expected =>
      cases hKind
      exact eq_of_beq hAdmits
  | exactly expected text =>
      cases hKind
      exact eq_of_beq (Bool.and_eq_true _ _ ▸ hAdmits).1

theorem value_of_admits {element : PatternElement} {token : Token}
    (hAdmits : element.admits token = true) : ∀ value ∈ element.value?, token.value = value := by
  intro value hValue
  cases element with
  | any | kind => cases hValue
  | value expected =>
      cases hValue
      exact eq_of_beq hAdmits
  | exactly expected text =>
      cases hValue
      exact eq_of_beq (Bool.and_eq_true _ _ ▸ hAdmits).2

end PatternElement

namespace Form

theorem fits_of_ofWindow? {jsonMode : Bool} {window : List Token} {form : Form}
    (hForm : ofWindow? jsonMode window = some form) : form.trigger.fits window = true := by
  have hFound := List.find?_some hForm
  simp only [Bool.and_eq_true] at hFound
  exact hFound.2

/-- A pair is recognized only where pairs are asked for. -/
theorem ne_jsonPair_of_ofWindow? {window : List Token} {form : Form}
    (hForm : ofWindow? false window = some form) : form ≠ jsonPair := by
  rintro rfl
  have hEnabled := List.find?_some hForm
  cases hEnabled

/-- No form that comes first fits where another one is recognized. -/
theorem not_fits_of_ofWindow? {jsonMode : Bool} {window : List Token} {form earlier : Form}
    (hForm : ofWindow? jsonMode window = some form)
    (hEarlier : earlier ∈ all.takeWhile (· != form)) :
    (earlier.enabled jsonMode && earlier.trigger.fits window) = false := by
  rw [ofWindow?, ← List.takeWhile_append_dropWhile (p := (· != form)) (l := all),
    List.find?_append, Option.or_eq_some_iff] at hForm
  rcases hForm with hFront | ⟨hNone, -⟩
  · have hOther := List.all_eq_true.mp List.all_takeWhile _ (List.mem_of_find?_eq_some hFront)
    simp at hOther
  · simpa using List.find?_eq_none.mp hNone earlier hEarlier

theorem width_le_length_of_ofWindow? {jsonMode : Bool} {window : List Token} {form : Form}
    (hForm : ofWindow? jsonMode window = some form) : form.width ≤ window.length :=
  Nat.le_trans (width_le_trigger_length form)
    (Pattern.length_le_of_fits (fits_of_ofWindow? hForm))

theorem exists_ofWindow? (jsonMode : Bool) (token : Token) (more : List Token) :
    ∃ form, ofWindow? jsonMode (token :: more) = some form := by
  have hConstruct : (ofWindow? jsonMode (token :: more)).map (·.construct none (token :: more)) ≠
      none := RuleSet.construct?_cons_ne_none { jsonMode } none 0 token more
  rw [ne_eq, Option.map_eq_none_iff] at hConstruct
  exact Option.ne_none_iff_exists'.mp hConstruct

theorem width_le_four (form : Form) : form.width ≤ 4 := by cases form <;> decide

/-- A construct takes as many tokens as its form says, whatever they are. -/
theorem width_construct (form : Form) (previous : Option Token) (window : List Token) :
    (form.construct previous window).width = form.width := by
  unfold construct
  split
  · unfold includeConstruct
    split <;> rfl
  · rfl

/-- Only an include directive may become a node of another kind than its form says. -/
theorem kind_construct (form : Form) (previous : Option Token) (window : List Token) :
    (form.construct previous window).node.kind = form.nodeKind ∨
      form = directive ∧ (form.construct previous window).node.kind = .includeLocal := by
  unfold construct
  split
  · unfold includeConstruct
    split
    · rename_i shape _ _
      cases shape
      · exact Or.inl rfl
      · exact Or.inr ⟨rfl, rfl⟩
    · exact Or.inl rfl
  · exact Or.inl rfl

theorem symbol_construct (form : Form) (previous : Option Token) (window : List Token) :
    (form.construct previous window).symbol =
      (form.declared window).map fun (kind, token) =>
        { kind, name := token.value, position := token.position, doc := docOf previous } := by
  unfold construct
  split
  · unfold includeConstruct
    split <;> rfl
  · rfl

/-- To show something of every token list, go from what remains after a recognized form to the list
that the form is recognized in. -/
theorem induction_ofWindow? (jsonMode : Bool) {motive : List Token → Prop} (hNil : motive [])
    (hForm : ∀ window form, ofWindow? jsonMode window = some form →
      motive (window.drop form.width) → motive window) (window : List Token) : motive window := by
  generalize hLength : window.length = length
  induction length using Nat.strongRecOn generalizing window with
  | ind length ih =>
      cases window with
      | nil => exact hNil
      | cons token more =>
          obtain ⟨form, hFound⟩ := exists_ofWindow? jsonMode token more
          apply hForm (token :: more) form hFound
          refine ih _ ?_ _ rfl
          have hWidth := one_le_width form
          rw [List.length_drop, List.length_cons]
          rw [List.length_cons] at hLength
          omega

end Form

namespace RuleSet

variable {rules : RuleSet}

theorem construct?_of_ofWindow? (hPinned : rules.pinned = []) {window : List Token} {form : Form}
    (hForm : Form.ofWindow? rules.jsonMode window = some form) (previous : Option Token)
    (index : Nat) :
    rules.construct? previous index window = some (form.construct previous window) := by
  simp [construct?, pinnedConstruct?, hPinned, hForm]

/-- One step of a walk, whatever rule decides where it stands. -/
theorem walk_of_construct? {previous : Option Token} {index : Nat} {window : List Token}
    {construct : Construct} (hWindow : window ≠ [])
    (hConstruct : rules.construct? previous index window = some construct)
    (hWidth : 1 ≤ construct.width) :
    rules.walk previous index window =
      let further := rules.walk window[construct.width.toNat - 1]?
        (index + construct.width.toNat) (window.drop construct.width.toNat)
      { further with constructs := construct :: further.constructs } := by
  obtain ⟨token, more, rfl⟩ := List.exists_cons_of_ne_nil hWindow
  obtain ⟨beyond, hBeyond⟩ := Nat.exists_eq_add_of_le' (Int.toNat_le_toNat hWidth)
  have hTaken : construct.width.toNat = beyond + 1 := hBeyond
  rw [walk, hConstruct]
  simp only [hTaken, Nat.add_sub_cancel, List.drop_succ_cons, Nat.add_assoc]
  rw [if_neg (Int.not_lt.mpr hWidth)]

/-- One step of a walk by the built-in forms. -/
theorem walk_of_ofWindow? (hPinned : rules.pinned = []) {window : List Token} {form : Form}
    (hForm : Form.ofWindow? rules.jsonMode window = some form) (previous : Option Token)
    (index : Nat) :
    rules.walk previous index window =
      let further := rules.walk window[form.width - 1]? (index + form.width)
        (window.drop form.width)
      { further with constructs := form.construct previous window :: further.constructs } := by
  have hWidth := Form.one_le_width form
  have hLength := Form.width_le_length_of_ofWindow? hForm
  have hWindow : window ≠ [] := List.ne_nil_of_length_pos (by omega)
  have hTaken : 1 ≤ (form.construct previous window).width := by
    rw [Form.width_construct]
    omega
  rw [walk_of_construct? hWindow (construct?_of_ofWindow? hPinned hForm previous index) hTaken]
  simp only [Form.width_construct, Int.toNat_natCast]

/-- The constructs of a walk without pairs, one step at a time. -/
theorem constructs_walk {window : List Token} {form : Form}
    (hForm : Form.ofWindow? false window = some form) (previous : Option Token) (index : Nat) :
    (walk {} previous index window).constructs =
      form.construct previous window ::
        (walk {} window[form.width - 1]? (index + form.width)
          (window.drop form.width)).constructs :=
  congrArg Walk.constructs (walk_of_ofWindow? rfl hForm previous index)

/-- Two walks by the built-in forms agree in what `tell` says of their constructs, if whatever
relates the places where they start holds again behind every form that one of them recognizes. -/
theorem map_constructs_walk_congr {α : Type} (rules : RuleSet) (hPinned : rules.pinned = [])
    (tell : Construct → α)
    (related : Option Token → List Token → Option Token → List Token → Prop)
    (hNil : ∀ previous previous' second, related previous [] previous' second → second = [])
    (hStep : ∀ previous first previous' second form, related previous first previous' second →
      Form.ofWindow? rules.jsonMode first = some form →
        Form.ofWindow? rules.jsonMode second = some form ∧
          tell (form.construct previous first) = tell (form.construct previous' second) ∧
          related first[form.width - 1]? (first.drop form.width) second[form.width - 1]?
            (second.drop form.width))
    {previous previous' : Option Token} {first second : List Token}
    (hRelated : related previous first previous' second) (index index' : Nat) :
    (rules.walk previous index first).constructs.map tell =
      (rules.walk previous' index' second).constructs.map tell := by
  induction first using Form.induction_ofWindow? rules.jsonMode
    generalizing second previous previous' index index' with
  | hNil =>
      rw [hNil _ _ _ hRelated, walk, walk]
  | hForm first form hForm ih =>
      obtain ⟨hSecond, hTell, hFurther⟩ := hStep _ _ _ _ form hRelated hForm
      rw [walk_of_ofWindow? hPinned hForm, walk_of_ofWindow? hPinned hSecond]
      simp only [List.map_cons]
      rw [hTell, ih hFurther]

/-- A walk by the built-in forms ends exactly where the tokens do. -/
theorem ending_walk (hPinned : rules.pinned = []) (previous : Option Token) (index : Nat)
    (window : List Token) :
    (rules.walk previous index window).ending = .finished (index + window.length) := by
  induction window using Form.induction_ofWindow? rules.jsonMode generalizing previous index with
  | hNil => rw [walk]; rfl
  | hForm window form hForm ih =>
      have hWidth := Form.width_le_length_of_ofWindow? hForm
      rw [walk_of_ofWindow? hPinned hForm]
      simp only
      rw [ih, List.length_drop, Nat.add_assoc, Nat.add_sub_cancel' hWidth]

end RuleSet

namespace Parser

variable {parser : Parser}

theorem ending_walk_of_pinned_eq_nil (hPinned : parser.rules.pinned = [])
    (hCursor : parser.cursor ≤ parser.tokens.length) :
    parser.walk.ending = .finished parser.tokens.length := by
  unfold walk
  rw [RuleSet.ending_walk hPinned, List.length_drop, Nat.add_sub_cancel' hCursor]

theorem constructs_parse (parser : Parser) : parser.parse.constructs = parser.walk.constructs := by
  unfold parse
  cases hEnding : parser.walk.ending <;> simp only [hEnding]

theorem table_parse (parser : Parser) :
    parser.parse.parser.table =
      parser.table.registerAll (parser.walk.constructs.filterMap (·.symbol)) := by
  unfold parse
  cases hEnding : parser.walk.ending <;> simp only [hEnding]

/-- A parser with the built-in forms always has nodes. -/
theorem nodes_parse (hPinned : parser.rules.pinned = []) :
    parser.parse.nodes = .ok (parser.walk.constructs.map (·.node)) := by
  have hEnding : parser.walk.ending = _ := RuleSet.ending_walk hPinned _ _ _
  unfold parse
  simp only [hEnding]

/-- A parser with the built-in forms walks to the end of its buffer. -/
theorem parse_of_pinned_eq_nil (hPinned : parser.rules.pinned = [])
    (hCursor : parser.cursor ≤ parser.tokens.length) :
    parser.parse.nodes = .ok (parser.walk.constructs.map (·.node)) ∧
      parser.parse.parser =
        { parser with
          cursor := parser.tokens.length
          table := parser.table.registerAll (parser.walk.constructs.filterMap (·.symbol)) } := by
  refine ⟨nodes_parse hPinned, ?_⟩
  unfold parse
  simp only [ending_walk_of_pinned_eq_nil hPinned hCursor, WalkEnd.cursor]

/-- A parser without pairs walks over its whole buffer at first. -/
theorem parse_start (tokens : List Token) (table : SymbolTable) :
    let constructs := (RuleSet.walk {} none 0 tokens).constructs
    let parsed := ({ tokens, table } : Parser).parse
    parsed.nodes = .ok (constructs.map (·.node)) ∧
      parsed.parser =
        { tokens, cursor := tokens.length,
          table := table.registerAll (constructs.filterMap (·.symbol)) } :=
  @parse_of_pinned_eq_nil { tokens, table } rfl (Nat.zero_le tokens.length)

end Parser

end FlatSyntax
