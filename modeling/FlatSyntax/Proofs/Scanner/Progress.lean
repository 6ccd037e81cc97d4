import FlatSyntax.Proofs.Lexeme.OpenBrackets
import FlatSyntax.Proofs.Scanner.Diagnosis
import FlatSyntax.Proofs.Scanner.Resumption

/-! Progress of the scanner. Where a token may start, one is found behind which the offset is
greater, or a problem of source text is met; so no text is scanned in more steps than it has
characters. -/
namespace FlatSyntax

/-- Whether a problem is one that scanning declares. -/
def Problem.isLexical : Problem → Bool
  | unterminatedString _ | unterminatedComment | unterminatedGroup .. | unbalancedDelimiter _
  | invalidCharacter _ => true
  | malformed .. | general .. | parserStalled .. => false

theorem Problem.Marks.isLexical {problem : Problem} {marked beyond : List Char}
    (hMarks : problem.Marks marked beyond) : problem.isLexical = true := by
  cases hMarks <;> rfl

theorem Diagnostic.PointsInto.isLexical {text : List Char} {file : String} {first : Int}
    {diagnostic : Diagnostic} (hPoints : diagnostic.PointsInto text file first) :
    diagnostic.problem.isLexical = true := by
  cases hPoints with
  | intro _ hMarks => exact hMarks.isLexical

/-- What is found from a cursor on brings the scan forward: a token with the cursor behind it in
step with a greater offset, or a problem that scanning declares. -/
inductive Cursor.Progresses (text : List Char) (first : Int) (cursor : Cursor) : Found → Prop where
  | token {token : Token} {after : Cursor} (hTracks : after.Tracks text first)
      (hOffset : cursor.offset < after.offset) : Progresses text first cursor (.token token after)
  | problem {diagnostic : Diagnostic} {after : Cursor}
      (hLexical : diagnostic.problem.isLexical = true) :
      Progresses text first cursor (.problem diagnostic after)

/-- Each token takes a character at least. -/
theorem Located.length_le {text : List Char} {first : Int} {start stop : Nat} {tokens : List Token}
    (hLocated : Located text first start tokens stop) : start + tokens.length ≤ stop := by
  induction hLocated with
  | nil hOrder => exact hOrder
  | cons hOrder hRaw _ _ _ _ ih =>
      have hLength := List.length_pos_iff.mpr hRaw
      rw [List.length_cons]
      omega

namespace Cursor

variable {text : List Char} {first : Int} {cursor : Cursor} {file : String}

/-- One call of the scanner at a character that is no gap. -/
theorem Tracks.next_progresses (hTracks : cursor.Tracks text first) {c : Char} {rest : List Char}
    (hRest : cursor.rest = c :: rest) (hGap : isGap c = false) (file : String) :
    cursor.Progresses text first (cursor.next file) := by
  obtain ⟨hAfter, hLocated⟩ := hTracks.next file
  cases hNext : cursor.next file with
  | token token after =>
      rw [hNext] at hAfter hLocated
      have hMoved : cursor.offset + 1 ≤ after.offset := hLocated.length_le
      exact .token hAfter hMoved
  | problem diagnostic after =>
      exact .problem (hTracks.next_problem (congrArg Found.problem? hNext)).isLexical
  | ended after =>
      have hNone := (next_eq_ended_iff.mp hNext).1
      rw [skipGap_of_not_gap hRest hGap, hRest] at hNone
      cases hNone

theorem Tracks.length_tokens_scan_le (hTracks : cursor.Tracks text first) (file : String) :
    cursor.offset + (cursor.scan file).tokens.length ≤ text.length := by
  obtain ⟨hAfter, hLocated⟩ := hTracks.scan file
  exact Nat.le_trans hLocated.length_le hAfter.hOffset

end Cursor

namespace TokenStream

variable {stream : TokenStream}

/-- A request for one token ends a stream or leaves less text before it. -/
theorem serve_next (stream : TokenStream) :
    (stream.serve .next).2.ended = true ∨
      (stream.serve .next).2.cursor.rest.length < stream.cursor.rest.length := by
  by_cases hEnded : stream.ended = true
  · rw [serve, if_pos hEnded]
    exact Or.inl hEnded
  · rw [serve, if_neg hEnded]
    cases hNext : stream.cursor.next stream.file with
    | token token after => exact Or.inr (Cursor.next_token_length_lt hNext)
    | problem | ended => exact Or.inl rfl

/-- A stream that has ended stays so, as long as it is only asked for tokens. -/
theorem ended_of_mem_serveAll (hEnded : stream.ended = true) (count : Nat) :
    ∀ step ∈ stream.serveAll (List.replicate count .next), step.2.ended = true := by
  have hStay : (stream.serve .next).2 = stream := by rw [serve, if_pos hEnded]
  induction count with
  | zero => exact List.forall_mem_nil _
  | succ count ih =>
      rw [List.replicate_succ, serveAll, hStay]
      exact List.forall_mem_cons.mpr ⟨hStay.symm ▸ hEnded, ih⟩

/-- A stream that is asked for one token after the other ends, at the latest with the request after
as many as there are characters left. -/
theorem ended_of_mem_drop_serveAll (stream : TokenStream) (count : Nat) :
    ∀ step ∈ (stream.serveAll (List.replicate count .next)).drop stream.cursor.rest.length,
      step.2.ended = true := by
  induction count generalizing stream with
  | zero =>
      rw [List.replicate_zero, serveAll, List.drop_nil]
      exact List.forall_mem_nil _
  | succ count ih =>
      rw [List.replicate_succ, serveAll]
      intro step hStep
      rcases stream.serve_next with hEnded | hShorter
      · rcases List.mem_cons.mp (List.mem_of_mem_drop hStep) with rfl | hLater
        · exact hEnded
        · exact ended_of_mem_serveAll hEnded count step hLater
      · obtain ⟨more, hMore⟩ := Nat.exists_eq_add_of_lt hShorter
        apply ih (stream.serve .next).2 step
        rw [hMore, List.drop_succ_cons, ← List.drop_drop] at hStep
        exact List.mem_of_mem_drop hStep

end TokenStream

/-- Scanning makes progress everywhere and fails only as declared. Wherever a cursor over a source
text stands before a character that is no gap, a call of the scanner finds a token and moves on, or
meets one of the declared problems. While a bracket group is read, the stack of open brackets is
never empty where its top is looked at, and after no more turns than there are characters a turn
ends the group. So the text is scanned up to its end or to a declared problem, with at most one
token for each character, and a stream that is asked for single tokens ends. -/
theorem scanning_makes_progress (source file : String) (line : Int) :
    let text := source.toList
    let scan := scanSource source file line
    let stream := TokenStream.ofSource source file line
    (∀ (cursor : Cursor) (c : Char) (rest : List Char), cursor.Tracks text line →
        cursor.rest = c :: rest → Cursor.isGap c = false →
        cursor.Progresses text line (cursor.next file)) ∧
      (∀ (bracket : Bracket) (inner : List Char),
        (∀ count stack passed rest, Group.Reaches bracket inner count stack passed rest →
          stack ≠ [] ∧ Group.turn stack rest ≠ .underflow ∧ count ≤ inner.length) ∧
        ∃ count stack passed rest ending, Group.Reaches bracket inner count stack passed rest ∧
          Group.turn stack rest = .ends ending ∧
          Group.read bracket inner = Group.Body.reading bracket ⟨passed, ending⟩) ∧
      scan.tokens.length ≤ text.length ∧
      (∀ diagnostic ∈ scan.problem, diagnostic.problem.isLexical = true) ∧
      (scan.problem = none → scan.cursor.rest = []) ∧
      ∀ count, ∀ step ∈ (stream.serveAll (List.replicate count .next)).drop text.length,
        step.2.ended = true := by
  intro text scan stream
  have hStart : (Cursor.start text line).Tracks text line := Cursor.tracks_start text line
  refine ⟨fun cursor c rest hTracks hRest hGap => hTracks.next_progresses hRest hGap file,
    fun bracket inner => ⟨fun count stack passed rest hReaches => ?_, ?_⟩, ?_,
    fun diagnostic hProblem => (hStart.scan_problem hProblem).isLexical,
    Cursor.rest_cursor_scan, stream.ended_of_mem_drop_serveAll⟩
  · exact ⟨hReaches.stack_ne_nil, hReaches.turn_ne_underflow, hReaches.count_le⟩
  · obtain ⟨count, stack, passed, rest, ending, hReaches, hTurn, hBody⟩ :=
      Group.exists_reaches bracket inner
    exact ⟨count, stack, passed, rest, ending, hReaches, hTurn,
      congrArg (Group.Body.reading bracket) hBody⟩
  · have hLength : 0 + scan.tokens.length ≤ text.length := hStart.length_tokens_scan_le file
    rw [Nat.zero_add] at hLength
    exact hLength

/-- A group that a closing bracket of another kind breaks off. -/
theorem scanning_makes_progress_unbalanced :
    let start := Cursor.start "(x]".toList 1
    start.Tracks "(x]".toList 1 ∧ start.Progresses "(x]".toList 1 (start.next "") ∧
      Group.Reaches .round ['x', ']'] 1 [.round] ['x'] [']'] ∧
      Group.turn [.round] [']'] = .ends (.unbalanced .square [']']) ∧
      Group.turn [.round] [']'] ≠ .underflow := by
  intro start
  have hTracks : start.Tracks "(x]".toList 1 := Cursor.tracks_start _ 1
  have hReaches : Group.Reaches .round ['x', ']'] 1 [.round] ['x'] [']'] :=
    .turn .start (by decide)
  obtain ⟨hCalls, hGroups, -⟩ := scanning_makes_progress "(x]" "" 1
  obtain ⟨-, hTop, -⟩ := (hGroups .round ['x', ']']).1 1 [.round] ['x'] [']'] hReaches
  exact ⟨hTracks, hCalls start '(' ['x', ']'] hTracks (by decide) (by decide), hReaches,
    by decide, hTop⟩

end FlatSyntax
