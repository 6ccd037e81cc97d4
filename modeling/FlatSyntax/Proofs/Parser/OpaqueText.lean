import FlatSyntax.Proofs.Parser.Recognition

/-! What the texts of groups, comments and literals mean to the parser without pairs. It takes such
a text for a word where the text is that word, and otherwise does not look at it. -/
namespace FlatSyntax

/-- The kinds whose value is a text of the author: the inside of a group, a comment or a literal. -/
def TokenKind.isOpaque (kind : TokenKind) : Bool :=
  kind == .curly || kind == .round || kind == .square || kind == .comment || kind == .string

/-- The second token is the first one, with another text if that is opaque. -/
structure Token.Retext (first second : Token) : Prop where
  hKind : second.kind = first.kind
  hPosition : second.position = first.position
  hValue : first.kind.isOpaque = false → second.value = first.value

/-- The words that a token of an opaque kind is taken for. After an identifier a curly group ends a
construct of its own, so that no star is looked for there. -/
def TokenKind.tellingWords (kind : TokenKind) : List String :=
  ["&", "struct", "namespace", "impl"] ++ if kind = .curly then [] else ["*"]

/-- Two texts tell the parser the same: both are the same telling word, or neither is one. -/
def Token.Agree (first second : Token) : Prop :=
  ∀ word ∈ first.kind.tellingWords, first.value = word ↔ second.value = word

/-- What a parse says apart from texts: the kinds of the nodes, and the kind, the name and the
position of each registered declaration. -/
def Parsed.skeleton (parsed : Parsed) :
    Except Diagnostic (List NodeKind) × List (SymbolKind × String × Position) :=
  (parsed.nodes.map (·.map (·.kind)),
    parsed.parser.table.symbols.map fun symbol => (symbol.kind, symbol.name, symbol.position))

/-- The skeleton of the first parse of a buffer. -/
def Parser.skeletonOf (tokens : List Token) :
    Except Diagnostic (List NodeKind) × List (SymbolKind × String × Position) :=
  ({ tokens } : Parser).parse.skeleton

namespace Token

theorem Retext.eq_of_not_opaque {first second : Token} (hRetext : Retext first second)
    (hOpaque : first.kind.isOpaque = false) : second = first := by
  have hValue := hRetext.hValue hOpaque
  obtain ⟨hKind, hPosition, -⟩ := hRetext
  cases first
  cases second
  simp_all [position]

end Token

namespace Pattern

/-- An element that does not depend on an opaque text. -/
def ignoresText : PatternElement → Bool
  | .any | .kind _ => true
  | .value _ => false
  | .exactly kind _ => !kind.isOpaque

theorem admits_of_ignoresText {element : PatternElement} (hElement : ignoresText element = true)
    {first second : Token} (hRetext : first.Retext second) :
    element.admits first = element.admits second := by
  cases element with
  | any => rfl
  | kind expected => simp [PatternElement.admits, hRetext.hKind]
  | value expected => cases hElement
  | exactly kind value =>
      by_cases hKind : first.kind = kind
      · subst hKind
        simp only [ignoresText, Bool.not_eq_true'] at hElement
        rw [hRetext.eq_of_not_opaque hElement]
      · have hOther : (first.kind == kind) = false := by simpa using hKind
        simp [PatternElement.admits, hRetext.hKind, hOther]

theorem admits_value_of_agree {first second : Token} (hAgree : first.Agree second) {word : String}
    (hWord : word ∈ first.kind.tellingWords) :
    (PatternElement.value word).admits first = (PatternElement.value word).admits second := by
  rw [Bool.eq_iff_iff]
  simpa [PatternElement.admits] using hAgree word hWord

theorem value_of_fits {word : String} {pattern : Pattern} {token : Token} {more : List Token}
    (hFits : fits (.value word :: pattern) (token :: more) = true) : token.value = word := by
  rw [fits, Bool.and_eq_true] at hFits
  exact eq_of_beq hFits.1

end Pattern

namespace Form

/-- The forms that are recognized by a word at a place where an opaque token may stand. -/
def isWordLed : Form → Bool
  | reference | structDecl | namespaceDecl | implBlock | pointer => true
  | _ => false

/-- The indices at which the constructs of a token list start. -/
inductive Starts : List Token → Nat → Prop where
  | here (window : List Token) : Starts window 0
  | further {window : List Token} {form : Form} {index : Nat}
      (hForm : ofWindow? false window = some form)
      (hIndex : Starts (window.drop form.width) index) : Starts window (form.width + index)

/-- A form that is not led by a word is found in both windows or in neither. -/
theorem fits_of_not_wordLed {form : Form} (hForm : form.isWordLed = false)
    {first second : List Token} (hRetext : List.Forall₂ Token.Retext first second) :
    (form.enabled false && form.trigger.fits first) =
      (form.enabled false && form.trigger.fits second) := by
  by_cases hPair : form = jsonPair
  · subst hPair
    rfl
  · have hTrigger : form.trigger.all Pattern.ignoresText = true := by
      cases form <;> first | rfl | contradiction
    rw [Pattern.fits_congr (fun element hMem first second hSame =>
      Pattern.admits_of_ignoresText (List.all_eq_true.mp hTrigger element hMem) hSame) hRetext]

/-- Asking for a second test as well finds the same form, if the one that is found passes it. -/
theorem find?_and_of_forall {p quiet : Form → Bool} {forms : List Form}
    (hQuiet : ∀ form, forms.find? p = some form → quiet form = true) :
    forms.find? (fun form => p form && quiet form) = forms.find? p := by
  induction forms with
  | nil => rfl
  | cons form forms ih =>
      by_cases hForm : p form = true
      · have hHead : quiet form = true := hQuiet form (List.find?_cons_of_pos hForm)
        rw [List.find?_cons_of_pos hForm, List.find?_cons_of_pos (by simp [hForm, hHead])]
      · rw [List.find?_cons_of_neg hForm] at hQuiet ⊢
        rw [List.find?_cons_of_neg (by simp [hForm]), ih hQuiet]

/-- The same form is recognized in two windows that the forms in question do not tell apart. -/
theorem ofWindow?_congr {quiet : Form → Bool} {first second : List Token}
    (hSame : ∀ form, quiet form = true →
      (form.enabled false && form.trigger.fits first) =
        (form.enabled false && form.trigger.fits second))
    (hFirst : ∀ form, ofWindow? false first = some form → quiet form = true)
    (hSecond : ∀ form, ofWindow? false second = some form → quiet form = true) :
    ofWindow? false first = ofWindow? false second := by
  rw [ofWindow?, ← find?_and_of_forall hFirst, ofWindow?, ← find?_and_of_forall hSecond]
  congr 1
  funext form
  cases hForm : quiet form with
  | true => rw [hSame form hForm]
  | false => rw [Bool.and_false, Bool.and_false]

/-- In two windows that differ in opaque texts only, the same form is recognized if that holds of
the word-led ones. -/
theorem ofWindow?_eq_of_wordLed {first second : List Token}
    (hRetext : List.Forall₂ Token.Retext first second)
    (hLed : ∀ form, form.isWordLed = true →
      (ofWindow? false first = some form ↔ ofWindow? false second = some form)) :
    ofWindow? false first = ofWindow? false second := by
  by_cases hFound : ∃ form, form.isWordLed = true ∧ ofWindow? false first = some form
  · obtain ⟨form, hForm, hFirst⟩ := hFound
    rw [hFirst, (hLed form hForm).mp hFirst]
  · have hQuiet (form : Form) (hForm : ofWindow? false first = some form) :
        (!form.isWordLed) = true := by
      rw [Bool.not_eq_true']
      exact eq_false_of_ne_true fun hTrue => hFound ⟨form, hTrue, hForm⟩
    have hQuiet' (form : Form) (hForm : ofWindow? false second = some form) :
        (!form.isWordLed) = true := by
      rw [Bool.not_eq_true']
      exact eq_false_of_ne_true fun hTrue => hFound ⟨form, hTrue, (hLed form hTrue).mpr hForm⟩
    apply ofWindow?_congr _ hQuiet hQuiet'
    intro form hForm
    exact fits_of_not_wordLed (by simpa using hForm) hRetext

/-- The kind of a node tells the word-led form that it comes from. -/
theorem eq_of_kind_construct {form found : Form} (hForm : form.isWordLed = true)
    {previous : Option Token} {window : List Token}
    (hKind : (found.construct previous window).node.kind = form.nodeKind) : found = form := by
  rcases kind_construct found previous window with hSame | ⟨-, hLocal⟩
  · rw [hSame] at hKind
    cases form <;> cases hForm <;> cases found <;> first | rfl | cases hKind
  · rw [hLocal] at hKind
    cases form <;> cases hForm <;> cases hKind

theorem kind_construct_of_wordLed {form : Form} (hForm : form.isWordLed = true)
    {previous : Option Token} {window : List Token} :
    (form.construct previous window).node.kind = form.nodeKind := by
  refine (kind_construct form previous window).resolve_right ?_
  rintro ⟨rfl, -⟩
  cases hForm

theorem exists_same_second {element : PatternElement} {kind : TokenKind} {pattern : Pattern}
    (hKind : kind.isOpaque = false) {first second : List Token}
    (hRetext : List.Forall₂ Token.Retext first second)
    (hFits : Pattern.fits (element :: .kind kind :: pattern) first = true) :
    ∃ head head' token more more', first = head :: token :: more ∧
      second = head' :: token :: more' := by
  obtain ⟨head, token, more, rfl, -, hToken, -⟩ := Pattern.exists_two_of_fits hFits
  obtain ⟨head', tail', -, hTail', rfl⟩ := List.forall₂_cons_left_iff.mp hRetext
  obtain ⟨token', more', hToken', -, rfl⟩ := List.forall₂_cons_left_iff.mp hTail'
  have hOpaque : token.kind.isOpaque = false := by
    rw [beq_iff_eq.mp hToken, hKind]
  exact ⟨head, head', token, more, more', rfl, by rw [hToken'.eq_of_not_opaque hOpaque]⟩

/-- What a construct declares is named by a token that is not opaque. -/
theorem declared_congr {form : Form} {first second : List Token}
    (hRetext : List.Forall₂ Token.Retext first second) (hFits : form.trigger.fits first = true) :
    form.declared first = form.declared second := by
  cases form with
  | structDecl | namespaceDecl | voidFunction | function | structVar | plainVariable
  | genericVariable =>
      obtain ⟨_, _, _, _, _, rfl, rfl⟩ := exists_same_second rfl hRetext hFits
      rfl
  | pointer =>
      obtain ⟨head, tail, rfl, -, hTail⟩ := Pattern.fits_cons_iff.mp hFits
      obtain ⟨head', tail', -, hRetext', rfl⟩ := List.forall₂_cons_left_iff.mp hRetext
      obtain ⟨_, _, _, _, _, rfl, rfl⟩ := exists_same_second rfl hRetext' hTail
      rfl
  | _ => simp only [declared]

/-- Texts that tell the parser the same are told apart by no form but the pointer. -/
theorem fits_of_agree {form : Form} (hForm : form ≠ pointer) {first second : List Token}
    (hRetext : List.Forall₂ Token.Retext first second)
    (hAgree : List.Forall₂ Token.Agree first second) :
    (form.enabled false && form.trigger.fits first) =
      (form.enabled false && form.trigger.fits second) := by
  cases hLed : form.isWordLed with
  | false => exact fits_of_not_wordLed hLed hRetext
  | true =>
      have hTrigger : ∀ element ∈ form.trigger, Pattern.ignoresText element = true ∨
          ∃ word ∈ ["&", "struct", "namespace", "impl"], element = .value word := by
        cases form <;> cases hLed <;> first | contradiction | simp [trigger, Pattern.ignoresText]
      have hBoth : List.Forall₂ (fun a b => Token.Retext a b ∧ Token.Agree a b) first second :=
        hRetext.mp (fun a b hRetext hAgree => ⟨hRetext, hAgree⟩) hAgree
      rw [Pattern.fits_congr (fun element hMem a b hSame => ?_) hBoth]
      rcases hTrigger element hMem with hText | ⟨word, hWord, rfl⟩
      · exact Pattern.admits_of_ignoresText hText hSame.1
      · exact Pattern.admits_value_of_agree hSame.2 (List.mem_append_left _ hWord)

/-- Nor does the pointer, unless the star stands for a curly group after an identifier. -/
theorem fits_pointer_of_agree {first second : List Token}
    (hRetext : List.Forall₂ Token.Retext first second)
    (hAgree : List.Forall₂ Token.Agree first second)
    (hCall : structCall.trigger.fits first = false) :
    pointer.trigger.fits first = pointer.trigger.fits second := by
  have hName {a b : Token} (hToken : a.Retext b) :
      (PatternElement.kind .identifier).admits a = (PatternElement.kind .identifier).admits b :=
    Pattern.admits_of_ignoresText rfl hToken
  cases hRetext with
  | nil => rfl
  | @cons head head' _ _ hHead hTail =>
      cases hTail with
      | nil => simp [trigger, Pattern.fits]
      | @cons star star' more more' hStar hMore =>
          have hLast : Pattern.fits [.kind .identifier] more =
              Pattern.fits [.kind .identifier] more' := by
            cases hMore with
            | nil => rfl
            | cons hToken _ => rw [Pattern.fits, Pattern.fits, hName hToken]; rfl
          by_cases hIdentifier : (PatternElement.kind .identifier).admits head = true
          · have hCurly : star.kind ≠ .curly := by
              intro hKind
              have hStarts : structCall.trigger.fits (head :: star :: more) = true := by
                simp only [trigger, Pattern.fits, hIdentifier, Bool.true_and, Bool.and_true]
                exact beq_iff_eq.mpr hKind
              rw [hStarts] at hCall
              cases hCall
            have hWord : "*" ∈ star.kind.tellingWords := by
              simp [TokenKind.tellingWords, hCurly]
            obtain ⟨-, hAgreeTail⟩ := List.forall₂_cons.mp hAgree
            obtain ⟨hAgreeStar, -⟩ := List.forall₂_cons.mp hAgreeTail
            have hStarSame := Pattern.admits_value_of_agree hAgreeStar hWord
            rw [trigger, Pattern.fits, Pattern.fits, hName hHead, hStarSame, hLast]
            rfl
          · have hIdentifier' := hIdentifier
            rw [hName hHead] at hIdentifier'
            simp [trigger, Pattern.fits, hIdentifier, hIdentifier']

/-- A curly group after an identifier is never passed over for a pointer. -/
theorem ne_pointer_of_structCall {window : List Token}
    (hCall : structCall.trigger.fits window = true) : ofWindow? false window ≠ some pointer := by
  intro hPointer
  have hEarlier : structCall ∈ all.takeWhile (· != pointer) := by decide
  have hFits := not_fits_of_ofWindow? hPointer hEarlier
  simp [enabled, hCall] at hFits

/-- Texts that tell the parser the same leave the recognized form as it is. -/
theorem ofWindow?_eq_of_agree {first second : List Token}
    (hRetext : List.Forall₂ Token.Retext first second)
    (hAgree : List.Forall₂ Token.Agree first second) :
    ofWindow? false first = ofWindow? false second := by
  cases hCall : structCall.trigger.fits first with
  | true =>
      have hSame := fits_of_agree (by decide : structCall ≠ pointer) hRetext hAgree
      have hCall' : structCall.trigger.fits second = true := by
        simpa [enabled, hCall] using hSame.symm
      have hNe {window : List Token} (hFits : structCall.trigger.fits window = true) (form : Form)
          (hForm : ofWindow? false window = some form) : (form != pointer) = true := by
        rw [bne_iff_ne]
        rintro rfl
        exact ne_pointer_of_structCall hFits hForm
      apply ofWindow?_congr _ (hNe hCall) (hNe hCall')
      intro form hForm
      exact fits_of_agree (bne_iff_ne.mp hForm) hRetext hAgree
  | false =>
      have hSame (form : Form) : (form.enabled false && form.trigger.fits first) =
          (form.enabled false && form.trigger.fits second) := by
        by_cases hForm : form = pointer
        · rw [hForm, fits_pointer_of_agree hRetext hAgree hCall]
        · exact fits_of_agree hForm hRetext hAgree
      simp only [ofWindow?, hSame]

/-- For each telling word of an opaque kind there are tokens around which a construct is there just
for a token with that word. -/
theorem exists_telling_context {kind : TokenKind} (hKind : kind.isOpaque = true) {word : String}
    (hWord : word ∈ kind.tellingWords) :
    ∃ form before after, form.isWordLed = true ∧ ∀ token : Token, token.kind = kind →
      (ofWindow? false (before ++ token :: after) = some form ↔ token.value = word) := by
  have hWord' : word = "&" ∨ word = "struct" ∨ word = "namespace" ∨ word = "impl" ∨
      word = "*" ∧ kind ≠ .curly := by
    by_cases hCurly : kind = .curly <;> simpa [TokenKind.tellingWords, hCurly] using hWord
  let name : Token := ⟨.identifier, "", 0, 0⟩
  let body : Token := ⟨.curly, "", 0, 0⟩
  have hContext : ∃ form before after, form.isWordLed = true ∧
      (∀ token, form.trigger.fits (before ++ token :: after) = true → token.value = word) ∧
      ∀ line column,
        ofWindow? false (before ++ ⟨kind, word, line, column⟩ :: after) = some form := by
    rcases hWord' with rfl | rfl | rfl | rfl | ⟨rfl, hCurly⟩
    · exact ⟨reference, [], [name], rfl, fun token hFits => Pattern.value_of_fits hFits,
        fun line column => by cases kind <;> cases hKind <;> rfl⟩
    · exact ⟨structDecl, [], [name, body], rfl,
        fun token hFits => Pattern.value_of_fits hFits,
        fun line column => by cases kind <;> cases hKind <;> rfl⟩
    · exact ⟨namespaceDecl, [], [name, body], rfl,
        fun token hFits => Pattern.value_of_fits hFits,
        fun line column => by cases kind <;> cases hKind <;> rfl⟩
    · exact ⟨implBlock, [], [name, body], rfl,
        fun token hFits => Pattern.value_of_fits hFits,
        fun line column => by cases kind <;> cases hKind <;> rfl⟩
    · exact ⟨pointer, [name], [name], rfl,
        fun token hFits => Pattern.value_of_fits hFits,
        fun line column => by
          cases kind <;> first | exact absurd rfl hCurly | rfl | cases hKind⟩
  obtain ⟨form, before, after, hLed, hFits, hFound⟩ := hContext
  refine ⟨form, before, after, hLed, ?_⟩
  rintro ⟨kind, value, line, column⟩ rfl
  constructor
  · intro hForm
    exact hFits _ (fits_of_ofWindow? hForm)
  · rintro rfl
    exact hFound line column

end Form

/-- What a construct adds to the skeleton of its parse. -/
def Construct.summary (construct : Construct) :
    NodeKind × Option (SymbolKind × String × Position) :=
  (construct.node.kind,
    construct.symbol.map fun symbol => (symbol.kind, symbol.name, symbol.position))

namespace Form

theorem summary_construct_congr {form : Form} {first second : List Token}
    (hRetext : List.Forall₂ Token.Retext first second) (hFits : form.trigger.fits first = true)
    (previous previous' : Option Token) :
    (form.construct previous first).summary = (form.construct previous' second).summary := by
  have hSymbol : (form.construct previous first).summary.2 =
      (form.construct previous' second).summary.2 := by
    simp only [Construct.summary, symbol_construct, Option.map_map, declared_congr hRetext hFits]
    rfl
  have hKind : (form.construct previous first).summary.1 =
      (form.construct previous' second).summary.1 := by
    by_cases hForm : form = directive
    · subst hForm
      obtain ⟨token, more, rfl, hToken, -⟩ := Pattern.fits_cons_iff.mp hFits
      obtain ⟨token', more', hToken', -, rfl⟩ := List.forall₂_cons_left_iff.mp hRetext
      have hOpaque : token.kind.isOpaque = false := by
        rw [beq_iff_eq.mp hToken]
        rfl
      rw [hToken'.eq_of_not_opaque hOpaque, Construct.summary, Construct.summary, construct,
        construct]
    · have hSame (previous : Option Token) (window : List Token) :
          (form.construct previous window).node.kind = form.nodeKind :=
        (kind_construct form previous window).resolve_right fun hLocal => hForm hLocal.1
      simp only [Construct.summary, hSame]
  exact Prod.ext hKind hSymbol

end Form

namespace RuleSet

/-- Where the same forms are recognized, two walks add the same to their skeletons. -/
theorem summaries_walk_congr {first second : List Token}
    (hRetext : List.Forall₂ Token.Retext first second)
    (hSame : ∀ index, Form.Starts first index →
      Form.ofWindow? false (first.drop index) = Form.ofWindow? false (second.drop index))
    (previous previous' : Option Token) (index index' : Nat) :
    (walk {} previous index first).constructs.map Construct.summary =
      (walk {} previous' index' second).constructs.map Construct.summary := by
  refine map_constructs_walk_congr {} rfl Construct.summary
    (fun _ first _ second => List.Forall₂ Token.Retext first second ∧
      ∀ index, Form.Starts first index →
        Form.ofWindow? false (first.drop index) = Form.ofWindow? false (second.drop index))
    ?_ ?_ ⟨hRetext, hSame⟩ index index'
  · rintro _ _ second ⟨hRetext, -⟩
    exact List.forall₂_nil_left_iff.mp hRetext
  · rintro previous window previous' second form ⟨hRetext, hSame⟩ hForm
    have hSecond : Form.ofWindow? false second = some form := by
      rw [← hForm]
      exact (hSame 0 (.here window)).symm
    refine ⟨hSecond, Form.summary_construct_congr hRetext (Form.fits_of_ofWindow? hForm) _ _,
      List.forall₂_drop form.width hRetext, fun index hStarts => ?_⟩
    rw [List.drop_drop, List.drop_drop]
    exact hSame (form.width + index) (.further hForm hStarts)

/-- Two walks that first meet a node of the same kind recognize the same form there. -/
theorem ofWindow?_eq_of_kinds_walk {first second : List Token}
    (hRetext : List.Forall₂ Token.Retext first second) {previous previous' : Option Token}
    {index index' : Nat}
    (hKinds : (walk {} previous index first).constructs.map (·.node.kind) =
      (walk {} previous' index' second).constructs.map (·.node.kind)) :
    Form.ofWindow? false first = Form.ofWindow? false second := by
  cases hRetext with
  | nil => rfl
  | @cons token token' more more' hToken hMore =>
      obtain ⟨found, hFound⟩ := Form.exists_ofWindow? false token more
      obtain ⟨found', hFound'⟩ := Form.exists_ofWindow? false token' more'
      rw [constructs_walk hFound, constructs_walk hFound'] at hKinds
      obtain ⟨hKind, -⟩ := List.cons.inj hKinds
      apply Form.ofWindow?_eq_of_wordLed (.cons hToken hMore)
      intro form hLed
      rw [hFound, hFound', Option.some.injEq, Option.some.injEq]
      constructor
      · rintro rfl
        have hSame := hKind.symm.trans (Form.kind_construct_of_wordLed hLed)
        exact Form.eq_of_kind_construct hLed hSame
      · rintro rfl
        have hSame := hKind.trans (Form.kind_construct_of_wordLed hLed)
        exact Form.eq_of_kind_construct hLed hSame

/-- Two walks that meet nodes of the same kinds recognize the same forms everywhere. -/
theorem ofWindow?_drop_eq_of_kinds_walk {first : List Token} {place : Nat}
    (hStarts : Form.Starts first place) {second : List Token}
    (hRetext : List.Forall₂ Token.Retext first second) {previous previous' : Option Token}
    {index index' : Nat}
    (hKinds : (walk {} previous index first).constructs.map (·.node.kind) =
      (walk {} previous' index' second).constructs.map (·.node.kind)) :
    Form.ofWindow? false (first.drop place) = Form.ofWindow? false (second.drop place) := by
  induction hStarts generalizing second previous previous' index index' with
  | here window => exact ofWindow?_eq_of_kinds_walk hRetext hKinds
  | @further window form place hForm _ ih =>
      have hSecond : Form.ofWindow? false second = some form := by
        rw [← hForm]
        exact (ofWindow?_eq_of_kinds_walk hRetext hKinds).symm
      rw [constructs_walk hForm, constructs_walk hSecond] at hKinds
      have hMore := ih (List.forall₂_drop form.width hRetext) (List.cons.inj hKinds).2
      rw [List.drop_drop, List.drop_drop] at hMore
      exact hMore

end RuleSet

namespace Parser

/-- The constructs of the first parse of a buffer, as far as the skeleton shows them. -/
theorem skeletonOf_eq (tokens : List Token) :
    skeletonOf tokens =
      (.ok ((RuleSet.walk {} none 0 tokens).constructs.map (·.node.kind)),
        ((RuleSet.walk {} none 0 tokens).constructs.map Construct.summary).filterMap Prod.snd) := by
  obtain ⟨hNodes, hParser⟩ := parse_start tokens .empty
  unfold skeletonOf Parsed.skeleton
  rw [hNodes, hParser]
  simp [Except.map, SymbolTable.empty, List.filterMap_map, List.map_filterMap,
    Function.comp_def, Construct.summary]

/-- Two buffers that differ in opaque texts only have the same skeleton exactly where, at each place
where a construct of the first starts, both or neither have the same word-led form. -/
theorem skeletonOf_eq_iff {first second : List Token}
    (hRetext : List.Forall₂ Token.Retext first second) :
    skeletonOf first = skeletonOf second ↔
      ∀ index, Form.Starts first index → ∀ form, form.isWordLed = true →
        (Form.ofWindow? false (first.drop index) = some form ↔
          Form.ofWindow? false (second.drop index) = some form) := by
  constructor
  · intro hSkeleton index hStarts form _
    rw [skeletonOf_eq, skeletonOf_eq, Prod.mk.injEq, Except.ok.injEq] at hSkeleton
    rw [RuleSet.ofWindow?_drop_eq_of_kinds_walk hStarts hRetext hSkeleton.1]
  · intro hLed
    have hSummaries := RuleSet.summaries_walk_congr hRetext
      (fun index hStarts => Form.ofWindow?_eq_of_wordLed (List.forall₂_drop index hRetext)
        (hLed index hStarts)) none none 0 0
    have hKinds := congrArg (List.map Prod.fst) hSummaries
    simp only [List.map_map] at hKinds
    rw [skeletonOf_eq, skeletonOf_eq, hSummaries]
    exact congrArg (fun kinds => (Except.ok kinds, _)) hKinds

/-- Texts that tell the parser the same leave the skeleton as it is. -/
theorem skeletonOf_eq_of_agree {first second : List Token}
    (hRetext : List.Forall₂ Token.Retext first second)
    (hAgree : List.Forall₂ Token.Agree first second) : skeletonOf first = skeletonOf second := by
  rw [skeletonOf_eq_iff hRetext]
  intro index _ form _
  rw [Form.ofWindow?_eq_of_agree (List.forall₂_drop index hRetext) (List.forall₂_drop index hAgree)]

/-- One token may be given another text in every buffer just where the two texts tell the parser
the same. -/
theorem forall_skeletonOf_eq_iff_agree {first second : Token} (hRetext : first.Retext second) :
    (∀ before after,
        skeletonOf (before ++ first :: after) = skeletonOf (before ++ second :: after)) ↔
      first.Agree second := by
  have hRefl (tokens : List Token) : List.Forall₂ Token.Retext tokens tokens :=
    List.forall₂_same.mpr fun _ _ => ⟨rfl, rfl, fun _ => rfl⟩
  constructor
  · intro hSkeleton word hWord
    cases hOpaque : first.kind.isOpaque with
    | false => rw [hRetext.eq_of_not_opaque hOpaque]
    | true =>
        obtain ⟨form, before, after, hLed, hTells⟩ := Form.exists_telling_context hOpaque hWord
        have hBuffers : List.Forall₂ Token.Retext (before ++ first :: after)
            (before ++ second :: after) :=
          List.rel_append (hRefl before) (.cons hRetext (hRefl after))
        have hForms :=
          (skeletonOf_eq_iff hBuffers).mp (hSkeleton before after) 0 (.here _) form hLed
        rw [List.drop_zero, List.drop_zero] at hForms
        rw [← hTells first rfl, hForms, hTells second hRetext.hKind]
  · intro hAgree before after
    have hSame (tokens : List Token) : List.Forall₂ Token.Agree tokens tokens :=
      List.forall₂_same.mpr fun _ _ _ _ => Iff.rfl
    exact skeletonOf_eq_of_agree
      (List.rel_append (hRefl before) (.cons hRetext (hRefl after)))
      (List.rel_append (hSame before) (.cons hAgree (hSame after)))

end Parser

/-- What opaque texts mean to the parser without pairs. Other opaque texts leave the skeleton of a
parse as it is exactly where each construct of the parse keeps its word-led form or its lack of
one. That is so wherever the texts agree on the telling words, and where a text is to be exchanged
in all buffers there is no other way. -/
theorem skeleton_reads_opaque_text_for_words {first second : List Token}
    (hRetext : List.Forall₂ Token.Retext first second) :
    (Parser.skeletonOf first = Parser.skeletonOf second ↔
        ∀ index, Form.Starts first index → ∀ form, form.isWordLed = true →
          (Form.ofWindow? false (first.drop index) = some form ↔
            Form.ofWindow? false (second.drop index) = some form)) ∧
      (List.Forall₂ Token.Agree first second →
        Parser.skeletonOf first = Parser.skeletonOf second) ∧
      ∀ token token' : Token, token.Retext token' →
        ((∀ before after, Parser.skeletonOf (before ++ token :: after) =
            Parser.skeletonOf (before ++ token' :: after)) ↔ token.Agree token') :=
  ⟨Parser.skeletonOf_eq_iff hRetext, Parser.skeletonOf_eq_of_agree hRetext,
    fun _ _ hToken => Parser.forall_skeletonOf_eq_iff_agree hToken⟩

theorem skeleton_reads_opaque_text_for_words_comment :
    List.Forall₂ Token.Retext [⟨.comment, "note", 1, 1⟩, ⟨.identifier, "x", 2, 1⟩]
        [⟨.comment, "", 1, 1⟩, ⟨.identifier, "x", 2, 1⟩] ∧
      Parser.skeletonOf [⟨.comment, "note", 1, 1⟩, ⟨.identifier, "x", 2, 1⟩] =
        Parser.skeletonOf [⟨.comment, "", 1, 1⟩, ⟨.identifier, "x", 2, 1⟩] := by
  have hRetext : List.Forall₂ Token.Retext [⟨.comment, "note", 1, 1⟩, ⟨.identifier, "x", 2, 1⟩]
      [⟨.comment, "", 1, 1⟩, ⟨.identifier, "x", 2, 1⟩] :=
    .cons ⟨rfl, rfl, fun hOpaque => by cases hOpaque⟩ (.cons ⟨rfl, rfl, fun _ => rfl⟩ .nil)
  have hAgree : List.Forall₂ Token.Agree [⟨.comment, "note", 1, 1⟩, ⟨.identifier, "x", 2, 1⟩]
      [⟨.comment, "", 1, 1⟩, ⟨.identifier, "x", 2, 1⟩] := by
    refine .cons ?_ (.cons ?_ .nil)
    · unfold Token.Agree
      decide
    · exact fun _ _ => Iff.rfl
  exact ⟨hRetext, (skeleton_reads_opaque_text_for_words hRetext).2.1 hAgree⟩

/-- A curly group with the text of a reserved word is taken for that word. -/
theorem skeleton_of_word_in_group :
    ¬ ∀ first second, List.Forall₂ Token.Retext first second →
        Parser.skeletonOf first = Parser.skeletonOf second := by
  intro hSame
  have hSkeleton := hSame
    [⟨.curly, "struct", 1, 1⟩, ⟨.identifier, "Foo", 1, 10⟩, ⟨.curly, " ", 1, 14⟩]
    [⟨.curly, "x", 1, 1⟩, ⟨.identifier, "Foo", 1, 10⟩, ⟨.curly, " ", 1, 14⟩]
    (.cons ⟨rfl, rfl, fun hOpaque => by cases hOpaque⟩
      (.cons ⟨rfl, rfl, fun _ => rfl⟩ (.cons ⟨rfl, rfl, fun _ => rfl⟩ .nil)))
  revert hSkeleton
  decide +kernel

end FlatSyntax
