import FlatSyntax.Proofs.Lexeme.Contents
import FlatSyntax.Proofs.Scanner.Tiling

/-! Scanning what stands inside a group. Between the brackets of a group that was scanned stands a
text in which brackets and comments are closed again, and a scan of that text alone keeps finding
them so. -/
namespace FlatSyntax

/-- The inside of a group in which no angle bracket and no include directive hides a bracket. -/
structure Group.Contents (text : List Char) : Prop where
  hInside : Group.Inside text []
  hAngle : '<' ∉ text
  hDirective : ¬ Directive.marker <:+: text

theorem Group.Contents.of_append {front rest : List Char} (hContents : Contents (front ++ rest))
    (hInside : Inside rest []) : Contents rest where
  hInside := hInside
  hAngle := fun hMem => hContents.hAngle (List.mem_append_right front hMem)
  hDirective := fun hInfix =>
    hContents.hDirective (hInfix.trans (List.suffix_append front rest).isInfix)

/-- A step of the scanner after which the text goes on as the inside of a group, or that ends the
scan at no problem or at one which has nothing to do with groups. -/
def Found.StaysInside : Found → Prop
  | .token _ after => Group.Contents after.rest
  | .problem diagnostic _ => diagnostic.problem.IsLocal
  | .ended _ => True

namespace Cursor

variable {cursor : Cursor}

theorem contents_skipGap (hContents : Group.Contents cursor.rest) :
    Group.Contents cursor.skipGap.rest := by
  obtain ⟨gap, hRest, hGap⟩ := cursor.exists_gap_of_skipGap
  rw [hRest] at hContents
  apply hContents.of_append
  apply hContents.hInside.of_append
  intro c hMem
  exact Group.notMem_deciding (by decide) (hGap c hMem)

theorem stays_next (hContents : Group.Contents cursor.rest) (file : String) :
    (cursor.next file).StaysInside := by
  have hStart := contents_skipGap hContents
  unfold next
  cases hRest : cursor.skipGap.rest with
  | nil =>
      simp only [hRest]
      trivial
  | cons first rest =>
      rw [hRest] at hStart
      have hAngle : first ≠ '<' := by
        rintro rfl
        exact hStart.hAngle List.mem_cons_self
      have hStays := hStart.hInside.stays_ofText cursor.skipGap.afterWord hAngle
        fun hPrefix => hStart.hDirective hPrefix.isInfix
      have hSource := Reading.source_ofText cursor.skipGap.afterWord first rest
      simp only [hRest]
      generalize Reading.ofText cursor.skipGap.afterWord first rest = reading at hStays hSource
      cases reading with
      | fault problem skipped covered more => exact hStays
      | lexeme lexeme more =>
          have hAfter : (cursor.skipGap.advanceBy lexeme.raw.length).rest = more := by
            rw [rest_advanceBy, hRest, ← hSource]
            exact List.drop_left
          simp only [place, Found.StaysInside, hAfter]
          rw [← hSource] at hStart
          exact hStart.of_append hStays

/-- A scan inside a group meets no problem but those that have nothing to do with groups. -/
theorem isLocal_of_mem_problem_scan (hContents : Group.Contents cursor.rest) (file : String) :
    ∀ diagnostic ∈ (cursor.scan file).problem, diagnostic.problem.IsLocal := by
  have hStays := stays_next hContents file
  fun_induction scan file cursor with
  | case1 => simp
  | case2 cursor diagnostic after hNext =>
      rw [hNext] at hStays
      rintro _ ⟨⟩
      exact hStays
  | case3 cursor token after hNext further ih =>
      rw [hNext] at hStays
      exact ih hStays (stays_next hStays file)

/-- Between the brackets of a group that is found stands a body. -/
theorem isBody_of_next {file : String} {after : Cursor} {token : Token} {bracket : Bracket}
    (hNext : cursor.next file = .token token after) (hKind : token.kind = bracket.kind) :
    Group.IsBody token.value.toList := by
  obtain ⟨lexeme, first, rest, -, hReading, -, hPlace⟩ := exists_lexeme_of_next hNext
  simp only [place, Found.token.injEq] at hPlace
  obtain ⟨rfl, -⟩ := hPlace
  have hKind : lexeme.kind = bracket.kind := hKind
  have hSpelled := Reading.wellSpelled_ofText cursor.skipGap.afterWord first rest
  rw [hReading] at hSpelled
  have hRaw : lexeme.raw = bracket.opener :: lexeme.value ++ [bracket.closer] := by
    have hSpells := hSpelled.1
    rw [hKind] at hSpells
    cases bracket <;> exact hSpells
  have hFirst : first = bracket.opener := by
    have hSource := Reading.source_ofText cursor.skipGap.afterWord first rest
    rw [hReading, Reading.source, hRaw] at hSource
    exact (List.cons.inj hSource).1.symm
  rw [hFirst, Reading.ofText_opener] at hReading
  obtain ⟨inner, rfl, hInner⟩ := Group.read_eq_lexeme hReading
  rw [String.toList_ofList]
  exact hInner

theorem isBody_of_mem_scan {file : String} {token : Token} {bracket : Bracket}
    (hMem : token ∈ (cursor.scan file).tokens) (hKind : token.kind = bracket.kind) :
    Group.IsBody token.value.toList := by
  fun_induction scan file cursor with
  | case1 | case2 => cases hMem
  | case3 cursor first after hNext further ih =>
      rcases List.mem_cons.mp hMem with rfl | hMore
      · exact isBody_of_next hNext hKind
      · exact ih hMore

end Cursor

/-- The text of a scanned group, if it has no angle bracket and no directive in it, can be scanned
by itself without any problem with groups, brackets or comments: the scan gives tokens up to the
end, or it ends at a literal that is cut off or at a character without a printed form. -/
theorem group_contents_scan_cleanly (source file : String) (line : Int) {token : Token}
    (hToken : token ∈ (scanSource source file line).tokens)
    (hKind : token.kind = .curly ∨ token.kind = .round ∨ token.kind = .square)
    (hAngle : '<' ∉ token.value.toList) (hDirective : ¬ Directive.marker <:+: token.value.toList)
    (file' : String) (line' : Int) :
    (scanSource token.value file' line').problem = none ∨
      ∃ diagnostic, (scanSource token.value file' line').problem = some diagnostic ∧
        ((∃ quote, diagnostic.problem = .unterminatedString quote) ∨
          ∃ c, diagnostic.problem = .invalidCharacter c) := by
  obtain ⟨bracket, hBracket⟩ : ∃ bracket : Bracket, token.kind = bracket.kind := by
    rcases hKind with hCurly | hRound | hSquare
    · exact ⟨.curly, hCurly⟩
    · exact ⟨.round, hRound⟩
    · exact ⟨.square, hSquare⟩
  have hContents : Group.Contents (Cursor.start token.value.toList line').rest :=
    ⟨Cursor.isBody_of_mem_scan hToken hBracket, hAngle, hDirective⟩
  have hLocal := Cursor.isLocal_of_mem_problem_scan hContents file'
  cases hProblem : (scanSource token.value file' line').problem with
  | none => exact Or.inl rfl
  | some diagnostic =>
      have hThis := hLocal diagnostic hProblem
      refine Or.inr ⟨diagnostic, rfl, ?_⟩
      generalize diagnostic.problem = problem at hThis
      cases hThis with
      | string quote => exact Or.inl ⟨quote, rfl⟩
      | character c => exact Or.inr ⟨c, rfl⟩

theorem group_contents_scan_cleanly_cut_literal :
    ((⟨.round, "')' /* ] */ \"\n", 1, 1⟩ : Token) ∈
        (scanSource "(')' /* ] */ \"\n)" "" 1).tokens ∧
      '<' ∉ "')' /* ] */ \"\n".toList ∧ ¬ Directive.marker <:+: "')' /* ] */ \"\n".toList) ∧
      ((scanSource "')' /* ] */ \"\n" "" 1).problem = none ∨
        ∃ diagnostic, (scanSource "')' /* ] */ \"\n" "" 1).problem = some diagnostic ∧
          ((∃ quote, diagnostic.problem = .unterminatedString quote) ∨
            ∃ c, diagnostic.problem = .invalidCharacter c)) := by
  have hToken : (⟨.round, "')' /* ] */ \"\n", 1, 1⟩ : Token) ∈
      (scanSource "(')' /* ] */ \"\n)" "" 1).tokens := by decide +kernel
  have hAngle : '<' ∉ "')' /* ] */ \"\n".toList := by decide +kernel
  have hDirective : ¬ Directive.marker <:+: "')' /* ] */ \"\n".toList := by decide +kernel
  refine ⟨⟨hToken, hAngle, hDirective⟩, ?_⟩
  exact group_contents_scan_cleanly "(')' /* ] */ \"\n)" "" 1 hToken (Or.inr (Or.inl rfl)) hAngle
    hDirective "" 1

end FlatSyntax
