import FlatSyntax.Lexeme.Basic
import FlatSyntax.Text.Lines

/-!
Comments: a line comment runs up to the end of its line, a block comment through its first closing
marker.
-/

namespace FlatSyntax.Comment

/-- Split the text after the opening marker of a block comment into the text inside the comment and
the text after its closing marker. -/
def splitBlock : List Char → Option (List Char × List Char)
  | [] => none
  | '*' :: '/' :: rest => some ([], rest)
  | c :: rest => (splitBlock rest).map fun (inner, after) => (c :: inner, after)

/-- The closing marker is the first one, and nothing is lost. -/
theorem eq_append_of_splitBlock {text inner after : List Char}
    (hSplit : splitBlock text = some (inner, after)) :
    text = inner ++ '*' :: '/' :: after := by
  fun_induction splitBlock text generalizing inner with
  | case1 => simp at hSplit
  | case2 rest => simp_all
  | case3 c rest _ ih =>
      obtain ⟨⟨inner', after'⟩, hRest, hPair⟩ := Option.map_eq_some_iff.mp hSplit
      simp only [Prod.mk.injEq] at hPair
      obtain ⟨rfl, rfl⟩ := hPair
      simp [ih hRest]

theorem splitBlock_length_lt {text inner after : List Char}
    (hSplit : splitBlock text = some (inner, after)) : after.length < text.length := by
  rw [eq_append_of_splitBlock hSplit]
  simp only [List.length_append, List.length_cons]
  omega

/-- Read a line comment, given the text after its marker. -/
def readLine (text : List Char) : Reading :=
  let inner := Text.sourceLine text
  .lexeme { kind := .comment, value := Text.trim inner, first := '/', more := '/' :: inner }
    (Text.afterSourceLine text)

/-- Read a block comment, given the text after its marker. -/
def readBlock (text : List Char) : Reading :=
  match splitBlock text with
  | some (inner, after) =>
      .lexeme
        { kind := .comment, value := Text.trim inner, first := '/',
          more := '*' :: inner ++ ['*', '/'] }
        after
  | none => .fault .unterminatedComment [] ('/' :: '*' :: text) []

@[simp] theorem source_readLine (text : List Char) :
    (readLine text).source = '/' :: '/' :: text := by
  simp [readLine, Reading.source, Lexeme.raw, Text.sourceLine_append_afterSourceLine]

@[simp] theorem source_readBlock (text : List Char) :
    (readBlock text).source = '/' :: '*' :: text := by
  unfold readBlock
  split
  · rename_i inner after hSplit
    simp [Reading.source, Lexeme.raw, eq_append_of_splitBlock hSplit]
  · simp [Reading.source]

end FlatSyntax.Comment
