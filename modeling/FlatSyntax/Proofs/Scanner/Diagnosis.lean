import FlatSyntax.Proofs.Lexeme.Fault
import FlatSyntax.Proofs.Scanner.Position

/-! Diagnostics of the scanner. A problem is located at a cursor that is in step with its offset, so
the quoted line is the one that the location names and the marked characters stand in it. -/
namespace FlatSyntax

/-- A diagnostic that quotes the line of the text which its location names, counted from the number
`first`, and locates the characters in it that its problem marks. -/
inductive Diagnostic.PointsInto (text : List Char) (file : String) (first : Int) :
    Diagnostic → Prop where
  | intro {problem : Problem} {number : Nat} {before marked beyond : List Char}
      (hLine : (text.splitOn '\n')[number]? = some (before ++ marked ++ beyond))
      (hMarks : problem.Marks marked beyond) :
      PointsInto text file first
        { problem
          location := some
            { file, line := first + number, column := before.length + 1, length := marked.length }
          sourceLine := some (String.ofList (before ++ marked ++ beyond)) }

theorem Problem.Marks.length_pos {problem : Problem} {marked beyond : List Char}
    (hMarks : problem.Marks marked beyond) : 0 < marked.length := by
  cases hMarks <;> exact Nat.succ_pos _

namespace Diagnostic

/-- The message of a diagnostic whose marker line, below the quoted line `quoted`, has a caret below
the character at the location and tildes below the characters after it, all within the line. -/
structure Underlines (diagnostic : Diagnostic) (location : Location) (quoted : String) : Prop where
  hLocation : diagnostic.location = some location
  hQuoted : diagnostic.sourceLine = some quoted
  hColumn : 1 ≤ location.column
  hLength : 1 ≤ location.length
  hInside : location.column - 1 + location.length ≤ quoted.length
  hUnderline : location.underline =
    String.ofList (List.replicate (location.column - 1).toNat ' ' ++
      '^' :: List.replicate (location.length - 1).toNat '~')
  hShorter : location.underline.length ≤ quoted.length
  hMessage : diagnostic.message =
    "\n".intercalate
      (diagnostic.headline :: (indent ++ quoted) :: (indent ++ location.underline) ::
        diagnostic.advice)

theorem PointsInto.underlines {text : List Char} {file : String} {first : Int}
    {diagnostic : Diagnostic} (hPoints : diagnostic.PointsInto text file first) :
    ∃ location quoted, diagnostic.Underlines location quoted := by
  cases hPoints with
  | @intro problem number before marked beyond hLine hMarks =>
      have hPos := hMarks.length_pos
      refine ⟨_, _, rfl, rfl, ?_, ?_, ?_, rfl, ?_, ?_⟩
      · simp only
        omega
      · simp only
        omega
      · simp only [String.length_ofList, List.length_append]
        omega
      · simp only [Location.underline, String.length_ofList, List.length_append, List.length_cons,
          List.length_replicate]
        omega
      · have hColumn : ((before.length : Int) + 1 > 0) := by omega
        simp only [message, excerpt, hColumn, if_true, List.cons_append, List.nil_append]

end Diagnostic

namespace Cursor

variable {text : List Char} {first : Int} {cursor : Cursor} {file : String}
  {diagnostic : Diagnostic}

/-- A problem spans what it marks. -/
theorem span_of_marks {problem : Problem} {marked beyond : List Char}
    (hLine : Text.sourceLine cursor.rest = marked ++ beyond)
    (hMarks : problem.Marks marked beyond) : cursor.span problem = marked.length := by
  cases hMarks with
  | string | group =>
      rw [span, hLine, List.append_nil]
      exact Nat.max_eq_left (Nat.succ_pos _)
  | comment | delimiter | character => rfl

theorem Tracks.diagnose_pointsInto (hTracks : cursor.Tracks text first) {problem : Problem}
    {marked beyond : List Char} (hLine : Text.sourceLine cursor.rest = marked ++ beyond)
    (hMarks : problem.Marks marked beyond) (file : String) :
    (cursor.diagnose file problem).PointsInto text file first := by
  obtain ⟨before, hText, hBefore, hOffset⟩ := Text.exists_line_before hTracks.hOffset
  have hQuoted : cursor.sourceLine = before ++ marked ++ beyond := by
    rw [sourceLine, hTracks.hLineText, hText, ← hTracks.hRest,
      Text.sourceLine_append_of_notMem hBefore, hLine, List.append_assoc]
  have hSplit := Text.splitOn_lineFeedsBefore hTracks.hOffset
  rw [← hTracks.hLineText] at hSplit
  have hPlace := hTracks.hPosition
  simp only [position, Text.positionAt, Position.mk.injEq] at hPlace
  obtain ⟨hNumber, hColumn⟩ := hPlace
  have hBelow : (cursor.column : Int) = before.length + 1 := by omega
  unfold diagnose
  rw [hNumber, hBelow, span_of_marks hLine hMarks, hQuoted]
  exact .intro (hSplit.trans (congrArg some hQuoted)) hMarks

theorem Tracks.next_problem (hTracks : cursor.Tracks text first)
    (hProblem : (cursor.next file).problem? = some diagnostic) :
    diagnostic.PointsInto text file first := by
  unfold Cursor.next at hProblem
  cases hRest : cursor.skipGap.rest with
  | nil =>
      simp only [hRest] at hProblem
      cases hProblem
  | cons c rest =>
      simp only [hRest] at hProblem
      have hOther : c ≠ '\n' := by
        have hHead : c ∈ (cursor.rest.dropWhile isGap).head? := by
          rw [← rest_skipGap, hRest]
          rfl
        rintro rfl
        exact absurd (Text.head?_dropWhile hHead) (by decide)
      have hSource := Reading.source_ofText cursor.skipGap.afterWord c rest
      have hMarked := Reading.wellMarked_ofText cursor.skipGap.afterWord hOther rest
      generalize Reading.ofText cursor.skipGap.afterWord c rest = reading at *
      cases reading with
      | lexeme => cases hProblem
      | fault problem skipped covered after =>
          obtain ⟨marked, beyond, hLine, hMarks⟩ := hMarked
          have hAnchor : (cursor.skipGap.advanceBy skipped.length).rest = covered ++ after := by
            rw [rest_advanceBy, hRest, ← hSource, Reading.source, List.append_assoc,
              List.drop_left]
          rw [← hAnchor] at hLine
          cases hProblem
          exact (hTracks.skipGap.advanceBy _).diagnose_pointsInto hLine hMarks file

theorem Tracks.scan_problem (hTracks : cursor.Tracks text first)
    (hProblem : (cursor.scan file).problem = some diagnostic) :
    diagnostic.PointsInto text file first := by
  fun_induction Cursor.scan file cursor with
  | case1 => cases hProblem
  | case2 cursor met after hNext =>
      apply hTracks.next_problem
      rw [hNext]
      exact hProblem
  | case3 cursor token after hNext further ih =>
      have hStep := hTracks.next file
      rw [hNext] at hStep
      exact ih hStep.1 hProblem

end Cursor

namespace TokenStream

variable {text : List Char} {first : Int} {stream : TokenStream} {diagnostic : Diagnostic}

theorem serve_problem (hTracks : stream.cursor.Tracks text first) {request : Request}
    (hProblem : (stream.serve request).1.problem = some diagnostic) :
    diagnostic.PointsInto text stream.file first := by
  cases hEnded : stream.ended with
  | true => cases request <;> simp [serve, hEnded] at hProblem
  | false =>
      cases request with
      | restart => cases hProblem
      | next =>
          apply hTracks.next_problem
          simp only [serve, hEnded, Bool.false_eq_true, if_false] at hProblem
          cases hNext : stream.cursor.next stream.file <;> simp_all [Found.problem?]
      | rest =>
          apply hTracks.scan_problem
          simp only [serve, hEnded, Bool.false_eq_true, if_false] at hProblem
          exact hProblem

theorem file_serve (stream : TokenStream) (request : Request) :
    (stream.serve request).2.file = stream.file := by
  unfold serve
  split
  · rfl
  · split
    · rfl
    · split <;> rfl
  · split <;> rfl

theorem serveAll_problem (hTracks : stream.cursor.Tracks text first) (requests : List Request) :
    ∀ step ∈ stream.serveAll requests, ∀ diagnostic, step.1.problem = some diagnostic →
      diagnostic.PointsInto text stream.file first := by
  induction requests generalizing stream with
  | nil => exact List.forall_mem_nil _
  | cons request more ih =>
      refine List.forall_mem_cons.mpr ⟨fun _ hProblem => serve_problem hTracks hProblem, ?_⟩
      rw [← file_serve stream request]
      exact ih (serve_located hTracks request).1

end TokenStream

/-- However a token stream over a source text is used, each problem that it meets is one of source
text and its diagnostic quotes a line of that text: the line which its location names. The location
spans the characters of the line that the problem is about, so the marker line of the message starts
below the first of them and does not run past the quoted line. -/
theorem diagnostics_point_into_quoted_line (source file : String) (line : Int)
    (requests : List TokenStream.Request) (step : TokenStream.Answer × TokenStream)
    (hStep : step ∈ (TokenStream.ofSource source file line).serveAll requests)
    (diagnostic : Diagnostic) (hProblem : step.1.problem = some diagnostic) :
    diagnostic.PointsInto source.toList file line ∧
      ∃ location quoted, diagnostic.Underlines location quoted := by
  have hStart : (TokenStream.ofSource source file line).cursor.Tracks source.toList line :=
    Cursor.tracks_start source.toList line
  have hPoints : diagnostic.PointsInto source.toList file line :=
    TokenStream.serveAll_problem hStart requests step hStep diagnostic hProblem
  exact ⟨hPoints, hPoints.underlines⟩

theorem diagnostics_point_into_quoted_line_comment :
    let served := (TokenStream.ofSource "x\n  \x7b (/* y\n" "f" 7).serve .rest
    served ∈ (TokenStream.ofSource "x\n  \x7b (/* y\n" "f" 7).serveAll [.rest] ∧
      served.1.problem =
        some ⟨.unterminatedComment, some ⟨"f", 8, 6, 2⟩, some "  \x7b (/* y"⟩ ∧
      Diagnostic.PointsInto "x\n  \x7b (/* y\n".toList "f" 7
        ⟨.unterminatedComment, some ⟨"f", 8, 6, 2⟩, some "  \x7b (/* y"⟩ := by
  intro served
  have hStep : served ∈ (TokenStream.ofSource "x\n  \x7b (/* y\n" "f" 7).serveAll [.rest] :=
    List.mem_singleton.mpr rfl
  have hProblem : served.1.problem =
      some ⟨.unterminatedComment, some ⟨"f", 8, 6, 2⟩, some "  \x7b (/* y"⟩ := by decide +kernel
  have hPoints := diagnostics_point_into_quoted_line _ "f" 7 [.rest] served hStep _ hProblem
  exact ⟨hStep, hProblem, hPoints.1⟩

end FlatSyntax
