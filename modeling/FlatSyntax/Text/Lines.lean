import FlatSyntax.Text.Blank

/-!
Lines of a text. Documentation is split at every kind of line break, source text at the line feed
alone.
-/

namespace FlatSyntax.Text

/-- The characters that end a line of documentation. -/
def lineBreakRanges : CodeRanges :=
  [(0xA, 0xD), (0x1C, 0x1E), (0x85, 0x85), (0x2028, 0x2029)]

def isLineBreak (c : Char) : Bool :=
  lineBreakRanges.covers c.toNat

theorem lineBreakRanges_ordered : lineBreakRanges.ordered = true := by decide

/-- Put a character in front of the first line. -/
def consToFirstLine (c : Char) : List (List Char) → List (List Char)
  | [] => [[c]]
  | line :: more => (c :: line) :: more

/-- The lines of a text without their breaks. A carriage return and the line feed after it are one
break, and a break at the end of the text starts no further line. -/
def lines : List Char → List (List Char)
  | [] => []
  | '\r' :: '\n' :: rest => [] :: lines rest
  | c :: rest => if isLineBreak c then [] :: lines rest else consToFirstLine c (lines rest)

/-- Write every break of the forms carriage return, and carriage return with line feed, as a single
line feed. -/
def normalizeNewlines : List Char → List Char
  | [] => []
  | '\r' :: '\n' :: rest => '\n' :: normalizeNewlines rest
  | c :: rest => (if c = '\r' then '\n' else c) :: normalizeNewlines rest

/-- The part of a text before its first line feed. -/
def sourceLine (text : List Char) : List Char :=
  text.takeWhile (· != '\n')

/-- The part of a text from its first line feed on; empty if there is none. -/
def afterSourceLine (text : List Char) : List Char :=
  text.dropWhile (· != '\n')

theorem sourceLine_append_afterSourceLine (text : List Char) :
    sourceLine text ++ afterSourceLine text = text :=
  List.takeWhile_append_dropWhile

theorem afterSourceLine_length_le (text : List Char) :
    (afterSourceLine text).length ≤ text.length := by
  have hLength := congrArg List.length (sourceLine_append_afterSourceLine text)
  simp only [List.length_append] at hLength
  omega

/-- The first line of a text that is more than white space, trimmed; empty if there is none. -/
def firstFullLine (text : List Char) : List Char :=
  (((lines text).map trim).find? (!·.isEmpty)).getD []

/-- The first line of the trimmed text; empty if the text is white space. -/
def firstTrimmedLine (text : List Char) : List Char :=
  (lines (trim text)).headD []

end FlatSyntax.Text
