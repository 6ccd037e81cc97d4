import FlatSyntax.Lexeme.Basic
import FlatSyntax.Lexeme.Word
import FlatSyntax.Text.Blank

/-!
Generic arguments: a bracketed list of type names directly after a word. An angle bracket may also
be a comparison, so the list is only accepted when its brackets balance before any character that no
type name holds, and when it neither starts nor ends with white space.
-/

namespace FlatSyntax.GenericArguments

/-- The characters of a list of type names. -/
def isPart (c : Char) : Bool :=
  Word.isPart c || " ,*:<>[]".toList.contains c

/-- Split a text at the closing bracket that matches an opening one before the text. The depth is
the number of further brackets that are open. -/
def splitClosing : (depth : Nat) → List Char → Option (List Char × List Char)
  | _, [] => none
  | depth, c :: rest =>
      if !isPart c then none
      else if c = '<' then
        (splitClosing (depth + 1) rest).map fun (inner, after) => (c :: inner, after)
      else if c = '>' then
        match depth with
        | 0 => some ([], rest)
        | depth + 1 =>
            (splitClosing depth rest).map fun (inner, after) => (c :: inner, after)
      else (splitClosing depth rest).map fun (inner, after) => (c :: inner, after)

/-- Nothing is lost by splitting. -/
theorem eq_append_of_splitClosing {depth : Nat} {text inner after : List Char}
    (hSplit : splitClosing depth text = some (inner, after)) :
    text = inner ++ '>' :: after := by
  fun_induction splitClosing depth text generalizing inner with
  | case1 | case2 => simp at hSplit
  | case4 => simp_all
  | _ =>
      obtain ⟨⟨inner', after'⟩, hRest, hPair⟩ := Option.map_eq_some_iff.mp hSplit
      cases hPair
      simp_all

/-- Read generic arguments, given the text after the opening bracket. -/
def read? (text : List Char) : Option Reading :=
  match splitClosing 0 text with
  | none => none
  | some (inner, after) =>
      if Text.trim inner = inner then
        some
          (.lexeme { kind := .angle, value := inner, first := '<', more := inner ++ ['>'] } after)
      else none

theorem source_of_read? {text : List Char} {reading : Reading} (hRead : read? text = some reading) :
    reading.source = '<' :: text := by
  unfold read? at hRead
  split at hRead
  · cases hRead
  · rename_i inner after hSplit
    split at hRead
    · cases hRead
      simp [Reading.source, Lexeme.raw, eq_append_of_splitClosing hSplit]
    · cases hRead

end FlatSyntax.GenericArguments
