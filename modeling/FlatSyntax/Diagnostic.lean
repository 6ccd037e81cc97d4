import FlatSyntax.Source.Location
import FlatSyntax.Text.Hex

/-!
Diagnostics of the front end: what is wrong, where, and the text that tells the user.
-/

namespace FlatSyntax

/-- What a diagnostic is about. All but the last two are found in source text. -/
inductive Problem where
  | unterminatedString (quote : String)
  | unterminatedComment
  | unterminatedGroup (opener closer : String)
  | unbalancedDelimiter (delimiter : String)
  | invalidCharacter (c : Char)
  /-- A fault of source text that has no case of its own. -/
  | malformed (text : String) (hint : Option String)
  /-- A fault of the front end that has no case of its own. -/
  | general (text : String) (hint : Option String)
  /-- The parser stood still with its cursor inside the token buffer. -/
  | parserStalled (text : String) (cursor tokenCount : Int)
deriving DecidableEq, Repr

namespace Problem

/-- The description, without location or hint. -/
def text : Problem → String
  | unterminatedString _ => "unterminated string literal"
  | unterminatedComment => "unterminated block comment"
  | unterminatedGroup opener _ => "unterminated '" ++ opener ++ "' group"
  | unbalancedDelimiter delimiter => "unexpected closing '" ++ delimiter ++ "'"
  | invalidCharacter c => "invalid character 0x" ++ String.ofList (Text.Hex.upper c.toNat)
  | malformed text _ => text
  | general text _ => text
  | parserStalled text cursor tokenCount =>
      text ++ " (cursor=" ++ toString cursor ++ ", tokens=" ++ toString tokenCount ++ ")"

/-- What the user can do about it. -/
def hint : Problem → Option String
  | unterminatedString quote => some ("add the closing '" ++ quote ++ "'")
  | unterminatedComment => some "add closing */ to terminate the comment"
  | unterminatedGroup _ closer => some ("add the matching '" ++ closer ++ "'")
  | unbalancedDelimiter _ => some "remove it or add the matching opening bracket"
  | invalidCharacter _ => none
  | malformed _ hint => hint
  | general _ hint => hint
  | parserStalled .. => some "this is a bug in the parser, please report it"

end Problem

structure Diagnostic where
  problem : Problem
  location : Option Location := none
  sourceLine : Option String := none
deriving DecidableEq, Repr

namespace Diagnostic

/-- How far a quoted source line and its marker are indented. -/
def indent : String := "    "

/-- The quoted source line with the span marked below it. A line is quoted only at a location with a
positive column. -/
def excerpt (diagnostic : Diagnostic) : List String :=
  match diagnostic.sourceLine, diagnostic.location with
  | some line, some location =>
      if location.column > 0 then [indent ++ line, indent ++ location.underline] else []
  | _, _ => []

/-- The first line of the message. -/
def headline (diagnostic : Diagnostic) : String :=
  let place :=
    match diagnostic.location with
    | some location => location.text ++ ": "
    | none => ""
  place ++ "error: " ++ diagnostic.problem.text

/-- The last line of the message, unless the hint is empty. -/
def advice (diagnostic : Diagnostic) : List String :=
  match diagnostic.problem.hint with
  | some hint => if hint.isEmpty then [] else ["hint: " ++ hint]
  | none => []

/-- The full message: headline, excerpt and advice, joined by line feeds. -/
def message (diagnostic : Diagnostic) : String :=
  "\n".intercalate (diagnostic.headline :: diagnostic.excerpt ++ diagnostic.advice)

end Diagnostic

end FlatSyntax
