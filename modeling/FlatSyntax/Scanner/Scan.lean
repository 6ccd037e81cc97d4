import FlatSyntax.Lexeme.Read
import FlatSyntax.Scanner.Cursor

/-!
Scanning: the tokens of a source text from a cursor on, up to its end or to the first problem.
-/

namespace FlatSyntax

/-- What is found from a cursor on, with the cursor after it. -/
inductive Found where
  | token (token : Token) (cursor : Cursor)
  | problem (diagnostic : Diagnostic) (cursor : Cursor)
  | ended (cursor : Cursor)
deriving DecidableEq, Repr

/-- The tokens from a cursor on, the diagnostic of the problem that ended the scan, if there was
one, and the cursor where the scan ended. -/
structure Scan where
  tokens : List Token
  problem : Option Diagnostic
  cursor : Cursor
deriving DecidableEq, Repr

namespace Cursor

/-- Turn a reading made at the cursor into what is found there. -/
def place (file : String) (cursor : Cursor) : Reading → Found
  | .lexeme lexeme _ =>
      .token
        { kind := lexeme.kind, value := String.ofList lexeme.value, line := cursor.line,
          column := cursor.column }
        { cursor.advanceBy lexeme.raw.length with afterWord := lexeme.isWord }
  | .fault problem skipped covered _ =>
      let anchor := cursor.advanceBy skipped.length
      .problem (anchor.diagnose file problem) (anchor.advanceBy covered.length)

/-- Find the next token after the gap at the cursor. -/
def next (file : String) (cursor : Cursor) : Found :=
  let cursor := cursor.skipGap
  match cursor.rest with
  | [] => .ended cursor
  | first :: rest => cursor.place file (Reading.ofText cursor.afterWord first rest)

/-- Where no gap stands at the cursor, the next token is read there. -/
theorem next_of_not_gap {cursor : Cursor} {first : Char} {rest : List Char}
    (hRest : cursor.rest = first :: rest) (hGap : isGap first = false) (file : String) :
    cursor.next file = cursor.place file (Reading.ofText cursor.afterWord first rest) := by
  unfold next
  rw [skipGap_of_not_gap hRest hGap]
  simp only [hRest]

theorem next_token_length_lt {file : String} {cursor after : Cursor} {token : Token}
    (hNext : cursor.next file = .token token after) : after.rest.length < cursor.rest.length := by
  unfold next at hNext
  have hGap := rest_skipGap_length_le cursor
  generalize cursor.skipGap = start at hNext hGap
  cases hRest : start.rest with
  | nil => simp [hRest] at hNext
  | cons first rest =>
      simp only [hRest] at hNext
      generalize Reading.ofText start.afterWord first rest = reading at hNext
      cases reading with
      | fault => simp [place] at hNext
      | lexeme lexeme _ =>
          simp only [place, Found.token.injEq] at hNext
          rw [← hNext.2]
          simp only [rest_advanceBy, List.length_drop, Lexeme.raw, List.length_cons]
          rw [hRest] at hGap ⊢
          simp only [List.length_cons] at hGap ⊢
          omega

/-- Scan the whole text after the cursor. -/
def scan (file : String) (cursor : Cursor) : Scan :=
  match _hNext : cursor.next file with
  | .ended cursor => ⟨[], none, cursor⟩
  | .problem diagnostic cursor => ⟨[], some diagnostic, cursor⟩
  | .token token after =>
      let further := scan file after
      { further with tokens := token :: further.tokens }
  termination_by cursor.rest.length
  decreasing_by exact next_token_length_lt _hNext

end Cursor

/-- Scan a whole source text. -/
def scanSource (source : String) (file : String) (line : Int) : Scan :=
  (Cursor.start source.toList line).scan file

end FlatSyntax
