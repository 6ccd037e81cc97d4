import FlatSyntax.Proofs.Parser.Recognition
import FlatSyntax.Proofs.Scanner.Tiling

/-! The order of the forms against their lengths. Nothing but their order decides between forms that
fit at the same place. On the tokens of a scan this almost always means that the longest one wins:
most forms never meet at all, and of those that do the longer one comes first, but for a single
pair. -/
namespace FlatSyntax

/-- Whether the scanner may give a token of this kind with this value, as far as the kind is one of
words. Of other kinds nothing is said. -/
def TokenKind.mayCarry (kind : TokenKind) (value : String) : Bool :=
  match kind with
  | .identifier | .keyword | .headKeyword | .bodyKeyword =>
      value.toList.head?.any Word.isStart && Word.kind value.toList == kind
  | _ => true

theorem Word.isStart_of_isWord {word : List Char} (hWord : Word.IsWord word) :
    word.head?.any Word.isStart = true := by
  obtain ⟨first, more, rfl, hFirst, -⟩ := hWord
  exact hFirst

theorem TokenKind.mayCarry_of_spells {kind : TokenKind} {value : String} {raw : List Char}
    (hSpells : kind.Spells value.toList raw) : kind.mayCarry value = true := by
  cases kind with
  | identifier =>
      obtain ⟨rfl, hWord, hFree⟩ := hSpells
      rw [mayCarry, Word.isStart_of_isWord hWord, Word.kind_of_notMem hFree]
      rfl
  | keyword | headKeyword | bodyKeyword =>
      obtain ⟨rfl, hWord, hMem⟩ := hSpells
      rw [mayCarry, Word.isStart_of_isWord hWord, Word.kind_of_mem hMem]
      rfl
  | _ => rfl

namespace PatternElement

/-- Whether two elements may admit the same token of a scan: they ask for no two kinds, for no two
values, and for no kind with a value that it does not carry. -/
def meets (a b : PatternElement) : Bool :=
  decide
    ((∀ kind ∈ a.kind?, ∀ other ∈ b.kind?, kind = other) ∧
      (∀ value ∈ a.value?, ∀ other ∈ b.value?, value = other) ∧
      (∀ kind ∈ a.kind?, ∀ value ∈ b.value?, kind.mayCarry value = true) ∧
      ∀ kind ∈ b.kind?, ∀ value ∈ a.value?, kind.mayCarry value = true)

theorem meets_of_admits {a b : PatternElement} {token : Token}
    (hToken : token.kind.mayCarry token.value = true) (hFirst : a.admits token = true)
    (hSecond : b.admits token = true) : a.meets b = true := by
  apply decide_eq_true
  refine ⟨?_, ?_, ?_, ?_⟩
  · intro kind hKind other hOther
    rw [← kind_of_admits hFirst kind hKind, kind_of_admits hSecond other hOther]
  · intro value hValue other hOther
    rw [← value_of_admits hFirst value hValue, value_of_admits hSecond other hOther]
  · intro kind hKind value hValue
    rw [← kind_of_admits hFirst kind hKind, ← value_of_admits hSecond value hValue]
    exact hToken
  · intro kind hKind value hValue
    rw [← kind_of_admits hSecond kind hKind, ← value_of_admits hFirst value hValue]
    exact hToken

end PatternElement

/-- Whether two patterns may fit at the same place of a scan, element by element as far as both
go. -/
def Pattern.meets : Pattern → Pattern → Bool
  | a :: first, b :: second => a.meets b && meets first second
  | _, _ => true

theorem Pattern.meets_of_fits {first second : Pattern} {window : List Token}
    (hTokens : ∀ token ∈ window, token.kind.mayCarry token.value = true)
    (hFirst : first.fits window = true) (hSecond : second.fits window = true) :
    first.meets second = true := by
  induction first generalizing second window with
  | nil => rfl
  | cons a first ih =>
      cases second with
      | nil => rfl
      | cons b second =>
          obtain ⟨token, more, rfl, hHead, hMore⟩ := fits_cons_iff.mp hFirst
          rw [fits, Bool.and_eq_true] at hSecond
          obtain ⟨hToken, hTail⟩ := List.forall_mem_cons.mp hTokens
          rw [meets, PatternElement.meets_of_admits hToken hHead hSecond.1,
            ih hTail hMore hSecond.2]
          rfl

namespace Form

/-- Of two forms that meet, the one that comes first is as long as the other, unless a type name
with a group of fields stands before a pointer. -/
theorem length_le_of_meets : ∀ form ∈ all, ∀ rival ∈ all.dropWhile (· != form),
    form.trigger.meets rival.trigger = true →
      rival.trigger.length ≤ form.trigger.length ∨ form = structCall ∧ rival = pointer := by
  decide +kernel

/-- A form that fits where another one is recognized does not come before that one. -/
theorem mem_dropWhile_of_fits {jsonMode : Bool} {window : List Token} {form rival : Form}
    (hForm : ofWindow? jsonMode window = some form) (hEnabled : rival.enabled jsonMode = true)
    (hFits : rival.trigger.fits window = true) : rival ∈ all.dropWhile (· != form) := by
  have hMem := mem_all rival
  rw [← List.takeWhile_append_dropWhile (p := (· != form)) (l := all)] at hMem
  rcases List.mem_append.mp hMem with hEarlier | hLater
  · have hNone := not_fits_of_ofWindow? hForm hEarlier
    rw [hEnabled, hFits] at hNone
    cases hNone
  · exact hLater

/-- Where a star is asked for after a type name and a curly group is, one token is both. -/
theorem exists_star_group {window : List Token} (hCall : structCall.trigger.fits window = true)
    (hPointer : pointer.trigger.fits window = true) :
    ∃ group, window[1]? = some group ∧ group.kind = .curly ∧ group.value = "*" := by
  obtain ⟨_, group, _, rfl, -, hCurly, -⟩ := Pattern.exists_two_of_fits hCall
  obtain ⟨_, star, _, hWindow, -, hStar, -⟩ := Pattern.exists_two_of_fits hPointer
  obtain rfl : group = star := (List.cons.inj (List.cons.inj hWindow).2).1
  exact ⟨group, rfl, eq_of_beq hCurly, eq_of_beq hStar⟩

/-- On tokens that a scanner may give, nothing longer fits where a form is recognized, except that a
type name before a curly group that holds a star alone may also be the start of a pointer. -/
theorem length_le_of_ofWindow? {jsonMode : Bool} {window : List Token} {form rival : Form}
    (hTokens : ∀ token ∈ window, token.kind.mayCarry token.value = true)
    (hForm : ofWindow? jsonMode window = some form) (hEnabled : rival.enabled jsonMode = true)
    (hFits : rival.trigger.fits window = true) :
    rival.trigger.length ≤ form.trigger.length ∨
      form = structCall ∧ rival = pointer ∧
        ∃ group, window[1]? = some group ∧ group.kind = .curly ∧ group.value = "*" := by
  have hRecognized := fits_of_ofWindow? hForm
  have hMeets : form.trigger.meets rival.trigger = true :=
    Pattern.meets_of_fits hTokens hRecognized hFits
  have hLater := mem_dropWhile_of_fits hForm hEnabled hFits
  rcases length_le_of_meets form (mem_all form) rival hLater hMeets with hLength | ⟨rfl, rfl⟩
  · exact Or.inl hLength
  · exact Or.inr ⟨rfl, rfl, exists_star_group hRecognized hFits⟩

end Form

/-- At every index of the tokens of a scan the parser without pairs recognizes a form, and no other
form that fits at the index has a longer trigger. The one exception is a type name, a curly group
that holds a star alone, and a name: what is longer there is the trigger of a pointer. -/
theorem recognized_form_is_longest (source file : String) (line : Int) {index : Nat}
    (hIndex : index < (scanSource source file line).tokens.length) :
    let parser : Parser := { tokens := (scanSource source file line).tokens }
    ∃ form, Form.ofWindow? false (parser.tokens.drop index) = some form ∧
      parser.construct? index =
        some (form.construct (parser.before index) (parser.tokens.drop index)) ∧
      ∀ rival : Form, rival ≠ .jsonPair → rival.trigger.fitsAt parser.tokens index = true →
        rival.trigger.length ≤ form.trigger.length ∨
          form = .structCall ∧ rival = .pointer ∧
            ∃ group, parser.tokens[index + 1]? = some group ∧ group.kind = .curly ∧
              group.value = "*" := by
  intro parser
  have hTokens : ∀ token ∈ parser.tokens.drop index, token.kind.mayCarry token.value = true := by
    intro token hMem
    obtain ⟨raw, hSpells⟩ := Cursor.spells_of_mem_scan (List.mem_of_mem_drop hMem)
    exact TokenKind.mayCarry_of_spells hSpells
  obtain ⟨form, hForm⟩ : ∃ form, Form.ofWindow? false (parser.tokens.drop index) = some form := by
    rw [List.drop_eq_getElem_cons hIndex]
    exact Form.exists_ofWindow? false _ _
  refine ⟨form, hForm, RuleSet.construct?_of_ofWindow? rfl hForm _ _, ?_⟩
  intro rival hRival hFits
  have hEnabled : rival.enabled false = true := bne_iff_ne.mpr hRival
  rw [Pattern.fitsAt, Bool.and_eq_true] at hFits
  have hLongest := Form.length_le_of_ofWindow? hTokens hForm hEnabled hFits.2
  rw [List.getElem?_drop] at hLongest
  exact hLongest

theorem recognized_form_is_longest_function :
    0 < (scanSource "void f() \x7b\x7d" "" 1).tokens.length ∧
      Form.ofWindow? false (scanSource "void f() \x7b\x7d" "" 1).tokens = some .voidFunction ∧
      ∀ rival : Form, rival ≠ .jsonPair →
        rival.trigger.fitsAt (scanSource "void f() \x7b\x7d" "" 1).tokens 0 = true →
        rival.trigger.length ≤ 4 := by
  have hIndex : 0 < (scanSource "void f() \x7b\x7d" "" 1).tokens.length := by decide +kernel
  have hFunction : Form.ofWindow? false (scanSource "void f() \x7b\x7d" "" 1).tokens =
      some .voidFunction := by decide +kernel
  obtain ⟨form, hForm, -, hLongest⟩ :=
    recognized_form_is_longest "void f() \x7b\x7d" "" 1 hIndex
  obtain rfl : .voidFunction = form := Option.some.inj (hFunction.symm.trans hForm)
  refine ⟨hIndex, hFunction, fun rival hRival hFits => ?_⟩
  rcases hLongest rival hRival hFits with hLength | ⟨hCall, -⟩
  · exact hLength
  · cases hCall

/-- Before a group that holds a star alone, a type name with a group of fields is recognized, though
the longer trigger of a pointer fits as well. -/
theorem recognized_form_not_longest_at_star_group :
    (scanSource "Foo\x7b*\x7dx" "" 1).problem = none ∧
      Form.ofWindow? false (scanSource "Foo\x7b*\x7dx" "" 1).tokens = some .structCall ∧
      Form.pointer.trigger.fitsAt (scanSource "Foo\x7b*\x7dx" "" 1).tokens 0 = true ∧
      ¬ Form.pointer.trigger.length ≤ Form.structCall.trigger.length := by
  decide +kernel

end FlatSyntax
