import FlatSyntax.Parser
import Mathlib.Data.List.TakeWhile

/-! Include directives and the paths they write. A directive writes at most one path, in one form;
the parser finds that path, and reports every directive that writes none. -/
namespace FlatSyntax

namespace IncludeForm

/-- A directive writes a path in a form: the marker, any number of spaces and the path between the
delimiters of the form. Anything may follow. -/
def Writes (form : IncludeForm) (path directive : List Char) : Prop :=
  ∃ (spaces : Nat) (rest : List Char),
    directive = Directive.marker ++ List.replicate spaces ' ' ++
      form.opener :: path ++ form.closer :: rest ∧
    form.closer ∉ path ∧ '\n' ∉ path

variable {form other : IncludeForm} {closer : Char} {text path directive : List Char}

theorem pathBefore_append (hCloser : closer ∉ path) (hBreak : '\n' ∉ path) (rest : List Char) :
    pathBefore closer (path ++ closer :: rest) = some path := by
  induction path with
  | nil => rw [List.nil_append, pathBefore, if_pos rfl]
  | cons c path ih =>
      obtain ⟨hC, hPath⟩ := List.ne_and_not_mem_of_not_mem_cons hCloser
      obtain ⟨hLine, hLines⟩ := List.ne_and_not_mem_of_not_mem_cons hBreak
      rw [List.cons_append, pathBefore, if_neg hC.symm, if_neg hLine.symm, ih hPath hLines,
        Option.map_some]

theorem eq_append_of_pathBefore (hPath : pathBefore closer text = some path) :
    ∃ rest, text = path ++ closer :: rest ∧ closer ∉ path ∧ '\n' ∉ path := by
  induction text generalizing path with
  | nil => nomatch hPath
  | cons c text ih =>
      rw [pathBefore] at hPath
      split at hPath
      case isTrue hCloser =>
        obtain rfl := Option.some.inj hPath
        exact ⟨text, by rw [hCloser, List.nil_append], List.not_mem_nil, List.not_mem_nil⟩
      case isFalse hCloser =>
        split at hPath
        case isTrue => nomatch hPath
        case isFalse hBreak =>
          obtain ⟨more, hMore, rfl⟩ := Option.map_eq_some_iff.mp hPath
          obtain ⟨rest, rfl, hC, hLine⟩ := ih hMore
          exact ⟨rest, rfl, List.not_mem_cons_of_ne_of_not_mem (Ne.symm hCloser) hC,
            List.not_mem_cons_of_ne_of_not_mem (Ne.symm hBreak) hLine⟩

/-- No form opens with a space, so taking all the spaces passes over no path. -/
theorem opener_ne_space (form : IncludeForm) : form.opener ≠ ' ' := by
  cases form <;> decide

theorem dropWhile_space_append (spaces : Nat) {c : Char} (hC : c ≠ ' ') (rest : List Char) :
    (List.replicate spaces ' ' ++ c :: rest).dropWhile (· == ' ') = c :: rest := by
  rw [List.dropWhile_append_of_pos (fun d hD => by simp [List.eq_of_mem_replicate hD]),
    List.dropWhile_cons_of_neg (by simpa using hC)]

theorem exists_replicate_append (text : List Char) :
    ∃ spaces, text = List.replicate spaces ' ' ++ text.dropWhile (· == ' ') := by
  have hSpaces : text.takeWhile (· == ' ') =
      List.replicate (text.takeWhile (· == ' ')).length ' ' :=
    List.eq_replicate_iff.mpr ⟨rfl, fun c hC => by simpa using List.mem_takeWhile_imp hC⟩
  refine ⟨(text.takeWhile (· == ' ')).length, ?_⟩
  rw [← hSpaces, List.takeWhile_append_dropWhile]

/-- The text of a directive that writes a path, without the marker and the spaces behind it. -/
theorem Writes.dropWhile_drop (hWrites : form.Writes path directive) :
    ∃ rest, (directive.drop Directive.marker.length).dropWhile (· == ' ') =
      form.opener :: (path ++ form.closer :: rest) := by
  obtain ⟨spaces, rest, rfl, -, -⟩ := hWrites
  refine ⟨rest, ?_⟩
  simp only [List.append_assoc, List.drop_left, List.cons_append]
  exact dropWhile_space_append spaces form.opener_ne_space _

theorem writes_of_path? (hPath : form.path? directive = some path) :
    form.Writes path directive := by
  rw [path?] at hPath
  split at hPath
  case isFalse => nomatch hPath
  case isTrue hMarker =>
    obtain ⟨text, rfl⟩ := List.isPrefixOf_iff_prefix.mp hMarker
    rw [List.drop_left] at hPath
    obtain ⟨spaces, hText⟩ := exists_replicate_append text
    split at hPath
    case h_1 => nomatch hPath
    case h_2 c behind hBehind =>
      split at hPath
      case isFalse => nomatch hPath
      case isTrue hOpener =>
        obtain ⟨rest, rfl, hCloser, hBreak⟩ := eq_append_of_pathBefore hPath
        refine ⟨spaces, rest, ?_, hCloser, hBreak⟩
        rw [hText, hBehind, hOpener]
        simp only [List.append_assoc, List.cons_append]

theorem Writes.path?_eq (hWrites : form.Writes path directive) :
    form.path? directive = some path := by
  obtain ⟨rest, hBehind⟩ := hWrites.dropWhile_drop
  obtain ⟨spaces, after, hDirective, hCloser, hBreak⟩ := hWrites
  have hMarker : Directive.marker.isPrefixOf directive = true := by
    rw [hDirective, List.append_assoc, List.append_assoc]
    exact List.isPrefixOf_iff_prefix.mpr (List.prefix_append _ _)
  rw [path?, if_pos hMarker, hBehind]
  simp only [if_true]
  exact pathBefore_append hCloser hBreak rest

/-- A directive writes one path at most, in one form. -/
theorem Writes.unique {otherPath : List Char} (hWrites : form.Writes path directive)
    (hOther : other.Writes otherPath directive) : other = form ∧ otherPath = path := by
  obtain ⟨rest, hBehind⟩ := hWrites.dropWhile_drop
  obtain ⟨otherRest, hOtherBehind⟩ := hOther.dropWhile_drop
  have hOpener : form.opener = other.opener := (List.cons.inj (hBehind.symm.trans hOtherBehind)).1
  have hForm : other = form := by
    cases form <;> cases other <;> first | rfl | exact absurd hOpener (by decide)
  subst hForm
  exact ⟨rfl, Option.some.inj (hOther.path?_eq.symm.trans hWrites.path?_eq)⟩

theorem classify_eq_some_iff :
    classify directive = some (form, path) ↔ form.Writes path directive := by
  constructor
  · intro hClassify
    rw [classify] at hClassify
    split at hClassify
    case h_1 found _ hFound =>
      obtain ⟨rfl, rfl⟩ := Prod.mk.inj (Option.some.inj hClassify)
      exact writes_of_path? hFound
    case h_2 found _ hFound =>
      obtain ⟨rfl, rfl⟩ := Prod.mk.inj (Option.some.inj hClassify)
      exact writes_of_path? hFound
    case h_3 => nomatch hClassify
  · intro hWrites
    have hPath := hWrites.path?_eq
    cases form with
    | bracketed => rw [classify, hPath]
    | quoted =>
        have hNone : bracketed.path? directive = none :=
          Option.eq_none_iff_forall_ne_some.mpr fun found hFound =>
            nomatch (hWrites.unique (writes_of_path? hFound)).1
        rw [classify, hNone, hPath]

theorem classify_eq_none_iff :
    classify directive = none ↔ ¬ ∃ (form : IncludeForm) (path : List Char),
      form.Writes path directive := by
  rw [Option.eq_none_iff_forall_ne_some, Prod.forall, not_exists]
  refine forall_congr' fun form => ?_
  rw [not_exists]
  exact forall_congr' fun path => not_congr classify_eq_some_iff

end IncludeForm

theorem IncludeForm.eq_of_nodeKind_eq {form other : IncludeForm}
    (hKind : form.nodeKind = other.nodeKind) : form = other := by
  cases form <;> cases other <;> first | rfl | nomatch hKind

namespace Form

variable {token : Token}

theorem includeConstruct_of_writes {form : IncludeForm} {path : List Char}
    (hWrites : form.Writes path token.value.toList) :
    includeConstruct token =
      { node :=
          { kind := form.nodeKind,
            tokens := [{ token with kind := .string, value := String.ofList path }] },
        width := 1 } := by
  rw [includeConstruct, IncludeForm.classify_eq_some_iff.mpr hWrites]

theorem includeConstruct_of_not_writes
    (hNone : ¬ ∃ (form : IncludeForm) (path : List Char), form.Writes path token.value.toList) :
    includeConstruct token =
      { node := { kind := .includePath, tokens := [token] }, width := 1,
        oddInclude := some token.value } := by
  rw [includeConstruct, IncludeForm.classify_eq_none_iff.mpr hNone]

theorem node_includeConstruct_eq_iff (hToken : token.kind = .directive) (form : IncludeForm)
    (path : String) :
    (includeConstruct token).node =
        { kind := form.nodeKind, tokens := [{ token with kind := .string, value := path }] } ↔
      form.Writes path.toList token.value.toList := by
  constructor
  · intro hNode
    by_cases hSome : ∃ (form : IncludeForm) (path : List Char), form.Writes path token.value.toList
    · obtain ⟨found, foundPath, hWrites⟩ := hSome
      rw [includeConstruct_of_writes hWrites] at hNode
      obtain ⟨hKind, hTokens⟩ := Node.mk.inj hNode
      have hValue := (Token.mk.inj (List.cons.inj hTokens).1).2.1
      rwa [← IncludeForm.eq_of_nodeKind_eq hKind, ← hValue, String.toList_ofList]
    · -- the token that is left unchanged is not the one of a path
      rw [includeConstruct_of_not_writes hSome] at hNode
      have hSame := (List.cons.inj (Node.mk.inj hNode).2).1
      rw [hSame] at hToken
      nomatch hToken
  · intro hWrites
    rw [includeConstruct_of_writes hWrites, String.ofList_toList]

end Form

/-- A directive token becomes a path token at its own place exactly where its text writes that path,
which it does in one form and for one path at most. Every other directive keeps its token and is
reported once. -/
theorem include_path_is_classified (value : String) (line column : Int) (previous : Option Token)
    (more : List Token) :
    let token : Token := { kind := .directive, value, line, column }
    let pathToken (path : String) : Token := { kind := .string, value := path, line, column }
    let construct := Form.directive.construct previous (token :: more)
    (∀ path : String,
        construct.node = { kind := .includePath, tokens := [pathToken path] } ↔
          IncludeForm.bracketed.Writes path.toList value.toList) ∧
      (∀ path : String,
        construct.node = { kind := .includeLocal, tokens := [pathToken path] } ↔
          IncludeForm.quoted.Writes path.toList value.toList) ∧
      (∀ (form other : IncludeForm) (path otherPath : List Char),
        form.Writes path value.toList → other.Writes otherPath value.toList →
          other = form ∧ otherPath = path) ∧
      ((∃ (form : IncludeForm) (path : List Char), form.Writes path value.toList) →
        construct.logRows = []) ∧
      ((¬ ∃ (form : IncludeForm) (path : List Char), form.Writes path value.toList) →
        construct.node = { kind := .includePath, tokens := [token] } ∧
          construct.logRows =
            [{ level := .debug, reporter := "wyst.frontend.parser"
               message := "Unrecognized include form: " ++ Text.quoted value }]) ∧
      construct.width = 1 ∧ construct.symbol = none := by
  intro token pathToken construct
  have hConstruct : construct = Form.includeConstruct token := rfl
  rw [hConstruct]
  refine ⟨fun path => Form.node_includeConstruct_eq_iff rfl .bracketed path,
    fun path => Form.node_includeConstruct_eq_iff rfl .quoted path,
    fun form other path otherPath hWrites hOther => hWrites.unique hOther, ?_, ?_, ?_⟩
  · rintro ⟨form, path, hWrites⟩
    rw [Form.includeConstruct_of_writes hWrites]
    rfl
  · intro hNone
    rw [Form.includeConstruct_of_not_writes hNone]
    exact ⟨rfl, rfl⟩
  · rw [Form.includeConstruct]
    split <;> exact ⟨rfl, rfl⟩

theorem include_path_is_classified_quoted :
    let written : Token :=
      { kind := .directive, value := "#include  \"a>b\" <c>", line := 3, column := 5 }
    let broken : Token := { kind := .directive, value := "#include <a\n>", line := 4, column := 1 }
    let path : Token := { kind := .string, value := "a>b", line := 3, column := 5 }
    IncludeForm.quoted.Writes "a>b".toList written.value.toList ∧
      (Form.directive.construct none [written]).node =
        { kind := .includeLocal, tokens := [path] } ∧
      (∀ (other : IncludeForm) (otherPath : List Char),
        other.Writes otherPath written.value.toList →
          other = .quoted ∧ otherPath = "a>b".toList) ∧
      (Form.directive.construct none [written]).logRows = [] ∧
      (Form.directive.construct none [broken]).node = { kind := .includePath, tokens := [broken] } ∧
      (Form.directive.construct none [broken]).logRows =
        [⟨.debug, "wyst.frontend.parser", "Unrecognized include form: '#include <a\\n>'"⟩] := by
  have hWrites : IncludeForm.quoted.Writes "a>b".toList "#include  \"a>b\" <c>".toList :=
    ⟨2, " <c>".toList, by decide, by decide, by decide⟩
  have hNone := IncludeForm.classify_eq_none_iff.mp
    (show IncludeForm.classify "#include <a\n>".toList = none by decide)
  obtain ⟨-, hQuoted, hUnique, hWritten, -⟩ :=
    include_path_is_classified "#include  \"a>b\" <c>" 3 5 none []
  obtain ⟨-, -, -, -, hOdd, -⟩ := include_path_is_classified "#include <a\n>" 4 1 none []
  obtain ⟨hBroken, hRows⟩ := hOdd hNone
  exact ⟨hWrites, (hQuoted "a>b").mpr hWrites,
    fun other otherPath hOther => hUnique _ _ _ _ hWrites hOther, hWritten ⟨_, _, hWrites⟩,
    hBroken, hRows.trans (by decide +kernel)⟩

end FlatSyntax
