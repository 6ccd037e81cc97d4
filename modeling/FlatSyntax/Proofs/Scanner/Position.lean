import FlatSyntax.Proofs.Scanner.Tiling
import FlatSyntax.Proofs.Text.Place
import FlatSyntax.Scanner.Stream

/-! Positions that the scanner keeps. A cursor moves by single characters, and each move keeps line,
column and line start in step with the offset; so they are right wherever a cursor stops, and every
token carries the position of its first character. -/
namespace FlatSyntax

/-- A cursor over a text whose first line has the number `first`, with everything that it knows
about its place told by its offset. -/
structure Cursor.Tracks (text : List Char) (first : Int) (cursor : Cursor) : Prop where
  hOffset : cursor.offset ≤ text.length
  hRest : cursor.rest = text.drop cursor.offset
  hLineText : cursor.lineText = text.drop (Text.lineStart text cursor.offset)
  hPosition : cursor.position = Text.positionAt text first cursor.offset

/-- Tokens that stand in a text one after the other between two offsets. Each is spelled from its
own offset on and carries the position of its first character. -/
inductive Located (text : List Char) (first : Int) : Nat → List Token → Nat → Prop where
  | nil {start stop : Nat} (hOrder : start ≤ stop) : Located text first start [] stop
  | cons {start offset stop : Nat} {token : Token} {raw : List Char} {tokens : List Token}
      (hOrder : start ≤ offset) (hRaw : raw ≠ []) (hText : raw <+: text.drop offset)
      (hSpells : token.kind.Spells token.value.toList raw)
      (hPosition : token.position = Text.positionAt text first offset)
      (hMore : Located text first (offset + raw.length) tokens stop) :
      Located text first start (token :: tokens) stop

namespace Located

variable {text : List Char} {first : Int} {start middle stop : Nat} {tokens more : List Token}

theorem le (hLocated : Located text first start tokens stop) : start ≤ stop := by
  induction hLocated with
  | nil hOrder => exact hOrder
  | cons hOrder _ _ _ _ _ ih => omega

theorem of_le {earlier : Nat} (hEarlier : earlier ≤ start)
    (hLocated : Located text first start tokens stop) :
    Located text first earlier tokens stop := by
  cases hLocated with
  | nil hOrder => exact .nil (Nat.le_trans hEarlier hOrder)
  | cons hOrder hRaw hText hSpells hPosition hMore =>
      exact .cons (Nat.le_trans hEarlier hOrder) hRaw hText hSpells hPosition hMore

theorem append (hFirst : Located text first start tokens middle)
    (hSecond : Located text first middle more stop) :
    Located text first start (tokens ++ more) stop := by
  induction hFirst with
  | nil hOrder => exact hSecond.of_le hOrder
  | cons hOrder hRaw hText hSpells hPosition _ ih =>
      exact .cons hOrder hRaw hText hSpells hPosition (ih hSecond)

/-- No token stands before the offset from which on they are located. -/
theorem before_of_mem {offset : Nat} (hOffset : offset < start)
    (hLocated : Located text first start tokens stop) {token : Token} (hMem : token ∈ tokens) :
    (Text.positionAt text first offset).Before token.position := by
  induction hLocated with
  | nil => cases hMem
  | cons hOrder _ _ _ hPosition _ ih =>
      rcases List.mem_cons.mp hMem with rfl | hLater
      · rw [hPosition]
        exact Text.positionAt_before text first (Nat.lt_of_lt_of_le hOffset hOrder)
      · exact ih (by omega) hLater

/-- Located tokens are in strict reading order. -/
theorem pairwise_before (hLocated : Located text first start tokens stop) :
    tokens.Pairwise fun a b => a.position.Before b.position := by
  induction hLocated with
  | nil => exact .nil
  | @cons _ offset _ _ raw _ _ hRaw _ _ hPosition hMore ih =>
      refine List.pairwise_cons.mpr ⟨fun later hLater => ?_, ih⟩
      have hLength := List.length_pos_iff.mpr hRaw
      rw [hPosition]
      exact hMore.before_of_mem (by omega) hLater

end Located

/-- The tokens that are found, at most one. -/
def Found.tokens : Found → List Token
  | .token found _ => [found]
  | .problem .. | .ended _ => []

/-- The problem that is found, if there is one. -/
def Found.problem? : Found → Option Diagnostic
  | .problem diagnostic _ => some diagnostic
  | .token .. | .ended _ => none

/-- The cursor after what is found. -/
def Found.cursor : Found → Cursor
  | .token _ cursor | .problem _ cursor | .ended cursor => cursor

namespace Cursor

variable {text : List Char} {first : Int} {cursor : Cursor}

theorem offset_advance_of_ne_nil (hRest : cursor.rest ≠ []) :
    cursor.advance.offset = cursor.offset + 1 := by
  unfold advance
  split
  · contradiction
  · split <;> rfl

theorem offset_advanceBy {count : Nat} (hCount : count ≤ cursor.rest.length) :
    (cursor.advanceBy count).offset = cursor.offset + count := by
  induction count generalizing cursor with
  | zero => rfl
  | succ count ih =>
      have hNonempty : cursor.rest ≠ [] := List.ne_nil_of_length_pos (by omega)
      rw [advanceBy, ih (by rw [rest_advance, List.length_tail]; omega),
        offset_advance_of_ne_nil hNonempty]
      omega

theorem tracks_start (text : List Char) (first : Int) : (start text first).Tracks text first where
  hOffset := Nat.zero_le _
  hRest := rfl
  hLineText := rfl
  hPosition := by simp [start, position, Text.positionAt, Text.lineStart, Text.lineFeedsBefore]

/-- One move keeps a cursor in step with its offset. -/
theorem Tracks.advance (hTracks : cursor.Tracks text first) :
    cursor.advance.Tracks text first := by
  have hPlace := hTracks.hPosition
  simp only [position, Text.positionAt, Position.mk.injEq] at hPlace
  obtain ⟨hLine, hColumn⟩ := hPlace
  cases hRest : cursor.rest with
  | nil =>
      have hStay : cursor.advance = cursor := by simp [Cursor.advance, hRest]
      rw [hStay]
      exact hTracks
  | cons c rest =>
      have hDrop : text.drop cursor.offset = c :: rest := by rw [← hTracks.hRest, hRest]
      have hChar : text[cursor.offset]? = some c := by rw [← List.head?_drop, hDrop]; rfl
      have hAfter : rest = text.drop (cursor.offset + 1) := by rw [← List.tail_drop, hDrop]; rfl
      have hOffset : cursor.offset + 1 ≤ text.length := (List.getElem?_eq_some_iff.mp hChar).1
      by_cases hFeed : c = '\n'
      · have hMoved : cursor.advance =
            { rest, offset := cursor.offset + 1, line := cursor.line + 1, column := 1,
              lineText := rest } := by
          simp [Cursor.advance, hRest, hFeed]
        rw [hFeed] at hChar
        rw [hMoved]
        refine ⟨hOffset, hAfter, ?_, ?_⟩
        · rw [Text.lineStart_of_lineFeed hChar, ← hAfter]
        · simp only [position, Text.positionAt, Text.lineStart_of_lineFeed hChar,
            Text.lineFeedsBefore_of_lineFeed hChar, Position.mk.injEq]
          omega
      · have hMoved : cursor.advance =
            { rest, offset := cursor.offset + 1, line := cursor.line,
              column := cursor.column + 1, lineText := cursor.lineText } := by
          simp [Cursor.advance, hRest, hFeed]
        have hOther : text[cursor.offset]? ≠ some '\n' := by simp [hChar, hFeed]
        rw [hMoved]
        refine ⟨hOffset, hAfter, ?_, ?_⟩
        · rw [Text.lineStart_of_ne hOther, ← hTracks.hLineText]
        · rw [Text.positionAt_succ_of_ne first hOther, ← hTracks.hPosition]
          rfl

theorem Tracks.advanceBy (hTracks : cursor.Tracks text first) (count : Nat) :
    (cursor.advanceBy count).Tracks text first := by
  induction count generalizing cursor with
  | zero => exact hTracks
  | succ count ih => exact ih hTracks.advance

theorem Tracks.skipGap (hTracks : cursor.Tracks text first) : cursor.skipGap.Tracks text first :=
  hTracks.advanceBy _

/-- What the cursor knows about its place does not depend on what it remembers of the last
token. -/
theorem Tracks.withAfterWord (hTracks : cursor.Tracks text first) (afterWord : Bool) :
    ({ cursor with afterWord } : Cursor).Tracks text first :=
  ⟨hTracks.hOffset, hTracks.hRest, hTracks.hLineText, hTracks.hPosition⟩

theorem offset_skipGap (cursor : Cursor) :
    cursor.skipGap.offset = cursor.offset + (cursor.rest.takeWhile isGap).length :=
  offset_advanceBy (List.takeWhile_prefix _).length_le

theorem offset_skipGap_le (cursor : Cursor) : cursor.offset ≤ cursor.skipGap.offset := by
  rw [offset_skipGap]
  exact Nat.le_add_right _ _

/-- What a reading finds is located from the cursor on, and the cursor stays in step. -/
theorem Tracks.place (hTracks : cursor.Tracks text first) {reading : Reading}
    (hSource : reading.source = cursor.rest) (hSpelled : reading.WellSpelled) (file : String) :
    (cursor.place file reading).cursor.Tracks text first ∧
      Located text first cursor.offset (cursor.place file reading).tokens
        (cursor.place file reading).cursor.offset := by
  cases reading with
  | lexeme lexeme rest =>
      have hText : lexeme.raw <+: cursor.rest := ⟨rest, hSource⟩
      have hAfter : (cursor.advanceBy lexeme.raw.length).offset =
          cursor.offset + lexeme.raw.length := offset_advanceBy hText.length_le
      refine ⟨(hTracks.advanceBy _).withAfterWord _, ?_⟩
      simp only [Cursor.place, Found.tokens, Found.cursor]
      refine .cons (Nat.le_refl _) (List.cons_ne_nil _ _) (hTracks.hRest ▸ hText) ?_ ?_
        (.nil (Nat.le_of_eq hAfter.symm))
      · simp only [String.toList_ofList]
        exact hSpelled.1
      · exact hTracks.hPosition
  | fault problem skipped covered rest =>
      have hLength := congrArg List.length hSource
      simp only [Reading.source, List.length_append] at hLength
      have hAnchor : (cursor.advanceBy skipped.length).offset = cursor.offset + skipped.length :=
        offset_advanceBy (by omega)
      have hAfter : ((cursor.advanceBy skipped.length).advanceBy covered.length).offset =
          cursor.offset + skipped.length + covered.length := by
        rw [offset_advanceBy (by rw [rest_advanceBy, List.length_drop]; omega), hAnchor]
      refine ⟨(hTracks.advanceBy _).advanceBy _, .nil ?_⟩
      simp only [Cursor.place, Found.cursor]
      omega

/-- One step of the scanner, whatever it finds. -/
theorem Tracks.next (hTracks : cursor.Tracks text first) (file : String) :
    (cursor.next file).cursor.Tracks text first ∧
      Located text first cursor.offset (cursor.next file).tokens
        (cursor.next file).cursor.offset := by
  have hOrder := offset_skipGap_le cursor
  unfold Cursor.next
  cases hRest : cursor.skipGap.rest with
  | nil =>
      simp only [hRest]
      exact ⟨hTracks.skipGap, .nil hOrder⟩
  | cons c rest =>
      simp only [hRest]
      obtain ⟨hAfter, hLocated⟩ := hTracks.skipGap.place
        (by rw [Reading.source_ofText, hRest])
        (Reading.wellSpelled_ofText cursor.skipGap.afterWord c rest) file
      exact ⟨hAfter, hLocated.of_le hOrder⟩

/-- A whole scan, by its steps. -/
theorem Tracks.scan (hTracks : cursor.Tracks text first) (file : String) :
    (cursor.scan file).cursor.Tracks text first ∧
      Located text first cursor.offset (cursor.scan file).tokens
        (cursor.scan file).cursor.offset := by
  fun_induction Cursor.scan file cursor with
  | case1 cursor after hNext =>
      have hStep := hTracks.next file
      rw [hNext] at hStep
      exact hStep
  | case2 cursor diagnostic after hNext =>
      have hStep := hTracks.next file
      rw [hNext] at hStep
      exact hStep
  | case3 cursor token after hNext further ih =>
      have hStep := hTracks.next file
      rw [hNext] at hStep
      obtain ⟨hLast, hFurther⟩ := ih hStep.1
      exact ⟨hLast, hStep.2.append hFurther⟩

end Cursor

namespace TokenStream

variable {text : List Char} {first : Int} {stream : TokenStream}

/-- One request, whatever the stream answers. -/
theorem serve_located (hTracks : stream.cursor.Tracks text first) (request : Request) :
    (stream.serve request).2.cursor.Tracks text first ∧
      Located text first stream.cursor.offset (stream.serve request).1.tokens
        (stream.serve request).2.cursor.offset := by
  have hStay : Located text first stream.cursor.offset [] stream.cursor.offset :=
    .nil (Nat.le_refl _)
  cases request with
  | restart => exact ⟨hTracks, hStay⟩
  | next =>
      cases hEnded : stream.ended with
      | true =>
          simp only [serve, hEnded, if_true]
          exact ⟨hTracks, hStay⟩
      | false =>
          have hStep := hTracks.next stream.file
          simp only [serve, hEnded, Bool.false_eq_true, if_false]
          generalize stream.cursor.next stream.file = found at hStep
          cases found <;> exact hStep
  | rest =>
      cases hEnded : stream.ended with
      | true =>
          simp only [serve, hEnded, if_true]
          exact ⟨hTracks, hStay⟩
      | false =>
          simp only [serve, hEnded, Bool.false_eq_true, if_false]
          exact hTracks.scan stream.file

/-- Answers of a stream with the states after them, from an offset on: each state is in step with
its offset, and each answer's tokens are located between the offsets before and after it. -/
inductive Answered (text : List Char) (first : Int) : Nat → List (Answer × TokenStream) → Prop where
  | nil {start : Nat} : Answered text first start []
  | cons {start : Nat} {served : Answer × TokenStream} {more : List (Answer × TokenStream)}
      (hTracks : served.2.cursor.Tracks text first)
      (hTokens : Located text first start served.1.tokens served.2.cursor.offset)
      (hMore : Answered text first served.2.cursor.offset more) :
      Answered text first start (served :: more)

theorem serveAll_answered (hTracks : stream.cursor.Tracks text first) (requests : List Request) :
    Answered text first stream.cursor.offset (stream.serveAll requests) := by
  induction requests generalizing stream with
  | nil => exact .nil
  | cons request more ih =>
      obtain ⟨hServed, hTokens⟩ := serve_located hTracks request
      exact .cons hServed hTokens (ih hServed)

namespace Answered

variable {start : Nat} {served : List (Answer × TokenStream)}

theorem tracks_of_mem (hAnswered : Answered text first start served) :
    ∀ step ∈ served, step.2.cursor.Tracks text first := by
  induction hAnswered with
  | nil => exact List.forall_mem_nil _
  | cons hTracks _ _ ih => exact List.forall_mem_cons.mpr ⟨hTracks, ih⟩

theorem located (hAnswered : Answered text first start served) :
    ∃ stop, Located text first start (served.flatMap (·.1.tokens)) stop := by
  induction hAnswered with
  | @nil start => exact ⟨start, .nil (Nat.le_refl start)⟩
  | cons _ hTokens _ ih =>
      obtain ⟨stop, hMore⟩ := ih
      exact ⟨stop, hTokens.append hMore⟩

theorem le_of_mem (hAnswered : Answered text first start served) :
    ∀ step ∈ served, start ≤ step.2.cursor.offset := by
  induction hAnswered with
  | nil => exact List.forall_mem_nil _
  | cons _ hTokens _ ih =>
      exact List.forall_mem_cons.mpr
        ⟨hTokens.le, fun step hStep => Nat.le_trans hTokens.le (ih step hStep)⟩

theorem pairwise_offset_le (hAnswered : Answered text first start served) :
    served.Pairwise fun a b => a.2.cursor.offset ≤ b.2.cursor.offset := by
  induction hAnswered with
  | nil => exact .nil
  | cons _ _ hMore ih => exact .cons hMore.le_of_mem ih

end Answered

end TokenStream

/-- However a token stream over a source text is used, and also after any problem, its offset stays
inside the text and never decreases, and the line, the column and the line start are those of the
offset. The tokens of each answer are located between the offsets before and after it, so all tokens
that are given are in strict reading order. -/
theorem positions_follow_offsets (source file : String) (line : Int)
    (requests : List TokenStream.Request) :
    let text := source.toList
    let served := (TokenStream.ofSource source file line).serveAll requests
    TokenStream.Answered text line 0 served ∧
      (∀ step ∈ served, step.2.cursor.Tracks text line) ∧
      (served.Pairwise fun a b => a.2.cursor.offset ≤ b.2.cursor.offset) ∧
      (served.flatMap (·.1.tokens)).Pairwise fun a b => a.position.Before b.position := by
  intro text served
  have hStart : (TokenStream.ofSource source file line).cursor.Tracks text line :=
    Cursor.tracks_start text line
  have hAnswered : TokenStream.Answered text line 0 served :=
    TokenStream.serveAll_answered hStart requests
  obtain ⟨stop, hLocated⟩ := hAnswered.located
  exact ⟨hAnswered, hAnswered.tracks_of_mem, hAnswered.pairwise_offset_le,
    hLocated.pairwise_before⟩

end FlatSyntax
