import FlatSyntax.Proofs.Lexeme.Extension
import FlatSyntax.Proofs.Scanner.Position

/-! Scanning on after a line feed. What is scanned without a problem is scanned in the same way
where a line feed and more text follow it, and behind that line feed the cursor is one at the start
of a text, except for its line and for its offset, which no token and no diagnostic shows. -/
namespace FlatSyntax

namespace Cursor

/-- The cursor at the same place, where the text goes on with `beyond`. -/
def extend (beyond : List Char) (cursor : Cursor) : Cursor :=
  { cursor with rest := cursor.rest ++ beyond, lineText := cursor.lineText ++ beyond }

/-- The cursor at the same place, where a text of the given length stands in front. -/
def shift (length : Nat) (cursor : Cursor) : Cursor :=
  { cursor with offset := length + cursor.offset }

end Cursor

/-- What is found at a cursor, where a text of the given length stands in front. -/
def Found.shift (length : Nat) : Found → Found
  | .token found cursor => .token found (cursor.shift length)
  | .problem diagnostic cursor => .problem diagnostic (cursor.shift length)
  | .ended cursor => .ended (cursor.shift length)

namespace Cursor

variable {cursor after : Cursor} {file : String} {token : Token}

section Extend

variable (beyond : List Char)

@[simp] theorem rest_extend (cursor : Cursor) :
    (cursor.extend beyond).rest = cursor.rest ++ beyond := rfl

@[simp] theorem afterWord_extend (cursor : Cursor) :
    (cursor.extend beyond).afterWord = cursor.afterWord := rfl

theorem advance_extend (hRest : cursor.rest ≠ []) :
    (cursor.extend beyond).advance = cursor.advance.extend beyond := by
  obtain ⟨c, rest, hText⟩ := List.exists_cons_of_ne_nil hRest
  unfold advance extend
  simp only [hText, List.cons_append]
  split <;> rfl

theorem advanceBy_extend {count : Nat} (hCount : count ≤ cursor.rest.length) :
    (cursor.extend beyond).advanceBy count = (cursor.advanceBy count).extend beyond := by
  induction count generalizing cursor with
  | zero => rfl
  | succ count ih =>
      have hNonempty : cursor.rest ≠ [] := List.ne_nil_of_length_pos (by omega)
      rw [advanceBy, advance_extend beyond hNonempty, advanceBy, ih]
      rw [rest_advance, List.length_tail]
      omega

/-- Behind the line feed at the end of a text another text starts. -/
theorem advance_extend_of_nil (hRest : cursor.rest = []) :
    (cursor.extend ('\n' :: beyond)).advance =
      (start beyond (cursor.line + 1)).shift (cursor.offset + 1) := by
  simp [advance, extend, shift, start, hRest]

/-- A gap is skipped as before if it ends before the text does; otherwise it goes on over the line
feed. -/
theorem skipGap_extend (cursor : Cursor) :
    (cursor.extend ('\n' :: beyond)).skipGap =
      if cursor.skipGap.rest = [] then
        (cursor.skipGap.extend ('\n' :: beyond)).advance.skipGap
      else cursor.skipGap.extend ('\n' :: beyond) := by
  generalize hText : cursor.rest = text
  induction text generalizing cursor with
  | nil =>
      have hSkip : cursor.skipGap = cursor := by simp [skipGap, hText, advanceBy]
      rw [hSkip, if_pos hText]
      exact skipGap_of_gap (by rw [rest_extend, hText]; rfl) (by decide)
  | cons c rest ih =>
      have hRest : (cursor.extend ('\n' :: beyond)).rest = c :: (rest ++ '\n' :: beyond) := by
        rw [rest_extend, hText]
        rfl
      cases hGap : isGap c with
      | true =>
          rw [skipGap_of_gap hRest hGap, skipGap_of_gap hText hGap,
            advance_extend _ (by rw [hText]; exact List.cons_ne_nil _ _)]
          exact ih cursor.advance (by rw [rest_advance, hText]; rfl)
      | false =>
          rw [skipGap_of_not_gap hRest hGap, skipGap_of_not_gap hText hGap,
            if_neg (by rw [hText]; exact List.cons_ne_nil _ _)]

/-- A token that is found is found where a line feed follows the text, and the cursor after it is
the same. -/
theorem next_extend_of_token (hNext : cursor.next file = .token token after) :
    (cursor.extend ('\n' :: beyond)).next file =
      .token token (after.extend ('\n' :: beyond)) := by
  obtain ⟨lexeme, first, rest, hRest, hReading, hSource, hPlace⟩ := exists_lexeme_of_next hNext
  have hSkip : (cursor.extend ('\n' :: beyond)).skipGap =
      cursor.skipGap.extend ('\n' :: beyond) := by
    rw [skipGap_extend, if_neg (by rw [hRest]; exact List.cons_ne_nil _ _)]
  have hExtended : Reading.ofText cursor.skipGap.afterWord first (rest ++ '\n' :: beyond) =
      .lexeme lexeme (after.rest ++ '\n' :: beyond) :=
    Reading.ofText_extends beyond _ _ _ _ _ hReading
  have hLength : lexeme.raw.length ≤ cursor.skipGap.rest.length := by
    rw [hRest, hSource, List.length_append]
    exact Nat.le_add_right _ _
  simp only [next, hSkip, rest_extend, afterWord_extend, hRest, List.cons_append, hExtended]
  simp only [place, Found.token.injEq] at hPlace ⊢
  rw [advanceBy_extend _ hLength, ← hPlace.1, ← hPlace.2]
  exact ⟨rfl, rfl⟩

theorem next_extend_of_ended (hNext : cursor.next file = .ended after) :
    (cursor.extend ('\n' :: beyond)).next file =
      (after.extend ('\n' :: beyond)).advance.next file := by
  obtain ⟨hRest, rfl⟩ := next_eq_ended_iff.mp hNext
  have hSkip := skipGap_extend beyond cursor
  rw [if_pos hRest] at hSkip
  rw [next, hSkip, next]

end Extend

theorem scan_eq (file : String) (cursor : Cursor) :
    cursor.scan file =
      match cursor.next file with
      | .ended after => ⟨[], none, after⟩
      | .problem diagnostic after => ⟨[], some diagnostic, after⟩
      | .token token after =>
          { after.scan file with tokens := token :: (after.scan file).tokens } := by
  rw [scan.eq_def]
  split <;> simp_all

theorem scan_of_rest_eq_nil (hRest : cursor.rest = []) (file : String) :
    cursor.scan file = ⟨[], none, cursor⟩ := by
  have hSkip : cursor.skipGap = cursor := by simp [skipGap, hRest, advanceBy]
  have hNext : cursor.next file = .ended cursor :=
    next_eq_ended_iff.mpr ⟨hSkip.symm ▸ hRest, hSkip⟩
  rw [scan_eq, hNext]

/-- A scan without a problem goes on behind a line feed after the text. -/
theorem scan_extend (hClean : (cursor.scan file).problem = none) (beyond : List Char) :
    (cursor.extend ('\n' :: beyond)).scan file =
      let last := (cursor.scan file).cursor
      let further := (last.extend ('\n' :: beyond)).advance.scan file
      { further with tokens := (cursor.scan file).tokens ++ further.tokens } := by
  fun_induction Cursor.scan file cursor with
  | case1 cursor after hNext =>
      rw [scan_eq file (cursor.extend _), next_extend_of_ended beyond hNext, ← scan_eq]
      rfl
  | case2 => cases hClean
  | case3 cursor token after hNext further ih =>
      rw [scan_eq, next_extend_of_token beyond hNext]
      simp only [ih hClean, List.cons_append]
      rfl

section Shift

variable (length : Nat)

@[simp] theorem rest_shift (cursor : Cursor) : (cursor.shift length).rest = cursor.rest := rfl

theorem advance_shift (cursor : Cursor) :
    (cursor.shift length).advance = cursor.advance.shift length := by
  unfold advance shift
  simp only
  split
  · rfl
  · split <;> rfl

theorem advanceBy_shift (count : Nat) (cursor : Cursor) :
    (cursor.shift length).advanceBy count = (cursor.advanceBy count).shift length := by
  induction count generalizing cursor with
  | zero => rfl
  | succ count ih => rw [advanceBy, advance_shift, ih, advanceBy]

theorem skipGap_shift (cursor : Cursor) :
    (cursor.shift length).skipGap = cursor.skipGap.shift length :=
  advanceBy_shift length _ cursor

theorem place_shift (file : String) (cursor : Cursor) (reading : Reading) :
    (cursor.shift length).place file reading = (cursor.place file reading).shift length := by
  cases reading <;> simp only [place, advanceBy_shift] <;> rfl

/-- No token and no diagnostic shows the offset, nor does any step look at it. -/
theorem next_shift (file : String) (cursor : Cursor) :
    (cursor.shift length).next file = (cursor.next file).shift length := by
  unfold next
  rw [skipGap_shift]
  simp only [rest_shift]
  split
  · rfl
  · exact place_shift length file cursor.skipGap _

theorem scan_shift (file : String) (cursor : Cursor) :
    (cursor.shift length).scan file =
      { cursor.scan file with cursor := (cursor.scan file).cursor.shift length } := by
  fun_induction Cursor.scan file cursor with
  | case1 cursor after hNext | case2 cursor diagnostic after hNext =>
      rw [scan_eq, next_shift, hNext]
      rfl
  | case3 cursor token after hNext further ih =>
      rw [scan_eq, next_shift, hNext]
      simp only [Found.shift, ih]
      rfl

end Shift

/-- A scan without a problem ends at the end of the text. -/
theorem rest_cursor_scan (hClean : (cursor.scan file).problem = none) :
    (cursor.scan file).cursor.rest = [] := by
  fun_induction Cursor.scan file cursor with
  | case1 cursor after hNext =>
      obtain ⟨hRest, rfl⟩ := next_eq_ended_iff.mp hNext
      exact hRest
  | case2 => cases hClean
  | case3 _ _ _ _ _ ih => exact ih hClean

/-- The cursor at the end of the text that it is in step with. -/
theorem Tracks.of_rest_eq_nil {text : List Char} {first : Int} (hTracks : cursor.Tracks text first)
    (hRest : cursor.rest = []) :
    cursor.offset = text.length ∧ cursor.line = first + text.count '\n' := by
  have hOffset : cursor.offset = text.length := by
    have hEnd := hTracks.hRest
    rw [hRest, eq_comm, List.drop_eq_nil_iff] at hEnd
    exact Nat.le_antisymm hTracks.hOffset hEnd
  have hLine := congrArg Position.line hTracks.hPosition
  simp only [position, Text.positionAt, Text.lineFeedsBefore, hOffset, List.take_length] at hLine
  exact ⟨hOffset, hLine⟩

end Cursor

/-- Where a text scans without a problem, scanning it with a line feed and a second text behind it
gives its tokens and then exactly what the second text gives by itself, counted from the line after
the line feed: the same tokens at the same positions and the same diagnostic of a problem, if there
is one. Only the offset at which the scan ends tells that the first text was there. -/
theorem scan_resumes_behind_line_feed (first second file : String) (line : Int)
    (hClean : (scanSource first file line).problem = none) :
    let alone := scanSource second file (line + first.toList.count '\n' + 1)
    scanSource (first ++ "\n" ++ second) file line =
      { tokens := (scanSource first file line).tokens ++ alone.tokens
        problem := alone.problem
        cursor := { alone.cursor with offset := first.length + 1 + alone.cursor.offset } } := by
  intro alone
  let last := (scanSource first file line).cursor
  have hTracks : last.Tracks first.toList line :=
    ((Cursor.tracks_start first.toList line).scan file).1
  have hRest : last.rest = [] := Cursor.rest_cursor_scan hClean
  obtain ⟨hOffset, hLine⟩ := hTracks.of_rest_eq_nil hRest
  let further := (last.extend ('\n' :: second.toList)).advance.scan file
  have hFurther :
      further = { alone with cursor := alone.cursor.shift (first.toList.length + 1) } := by
    simp only [further]
    rw [Cursor.advance_extend_of_nil _ hRest, hOffset, hLine, Cursor.scan_shift]
    rfl
  have hStart : Cursor.start (first ++ "\n" ++ second).toList line =
      (Cursor.start first.toList line).extend ('\n' :: second.toList) := by
    simp [Cursor.start, Cursor.extend]
  calc
    scanSource (first ++ "\n" ++ second) file line
      = ((Cursor.start first.toList line).extend ('\n' :: second.toList)).scan file := by
        rw [scanSource, hStart]
    _ = { further with tokens := (scanSource first file line).tokens ++ further.tokens } :=
        Cursor.scan_extend hClean second.toList
    _ = _ := by
        rw [hFurther]
        rfl

theorem scan_resumes_behind_line_feed_comment :
    (scanSource "v //" "f" 3).problem = none ∧
      scanSource ("v //" ++ "\n" ++ "(") "f" 3 =
        { tokens := [⟨.identifier, "v", 3, 1⟩, ⟨.comment, "", 3, 3⟩]
          problem := some ⟨.unterminatedGroup "(" ")", some ⟨"f", 4, 1, 1⟩, some "("⟩
          cursor := { rest := [], offset := 6, line := 4, column := 2, lineText := ['('] } } := by
  have hClean : (scanSource "v //" "f" 3).problem = none := by decide +kernel
  refine ⟨hClean, (scan_resumes_behind_line_feed "v //" "(" "f" 3 hClean).trans ?_⟩
  decide +kernel

end FlatSyntax
