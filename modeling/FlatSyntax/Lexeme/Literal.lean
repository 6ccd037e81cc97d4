import FlatSyntax.Lexeme.Basic

/-!
String and character literals. Inside a literal the backslash takes the next character with it,
whatever that is; the literal ends at the next quote of its own kind and is cut off by a line feed.
-/

namespace FlatSyntax.Literal

def isQuote (c : Char) : Bool :=
  c == '"' || c == '\''

/-- The characters that a backslash gives another meaning, with that meaning. -/
def escapes : List (Char × Char) :=
  [('n', '\n'), ('r', '\r'), ('t', '\t'), ('\\', '\\'), ('"', '"'), ('\'', '\''), ('0', '\x00')]

/-- The text that a backslash and a character stand for. An unknown escape stands for itself. -/
def unescape (c : Char) : List Char :=
  match escapes.lookup c with
  | some meaning => [meaning]
  | none => ['\\', c]

/-- The inside of a literal. -/
structure Body where
  /-- The characters read, without the closing quote. -/
  raw : List Char
  /-- What they stand for. -/
  value : List Char
  /-- Whether the closing quote was found. -/
  closed : Bool
  /-- The text after the closing quote, or from the place where the literal was cut off. -/
  rest : List Char
deriving DecidableEq, Repr

/-- Put characters in front of a body. -/
def Body.cons (raw value : List Char) (body : Body) : Body :=
  { body with raw := raw ++ body.raw, value := value ++ body.value }

/-- Read the inside of a literal, given the text after its opening quote. -/
def readBody (quote : Char) : List Char → Body
  | [] => ⟨[], [], false, []⟩
  | c :: rest =>
      if c = quote then ⟨[], [], true, rest⟩
      else if c = '\n' then ⟨[], [], false, c :: rest⟩
      else if c = '\\' then
        match rest with
        | [] => ⟨['\\'], ['\\'], false, []⟩
        | e :: more => (readBody quote more).cons ['\\', e] (unescape e)
      else (readBody quote rest).cons [c] [c]

/-- The characters that a body was read from. -/
def Body.source (quote : Char) (body : Body) : List Char :=
  body.raw ++ if body.closed then quote :: body.rest else body.rest

@[simp] theorem Body.source_cons (quote : Char) (raw value : List Char) (body : Body) :
    (body.cons raw value).source quote = raw ++ body.source quote :=
  List.append_assoc ..

/-- Nothing is lost inside a literal. -/
theorem source_readBody (quote : Char) (text : List Char) :
    (readBody quote text).source quote = text := by
  fun_induction readBody quote text with
  | case5 | case6 => simp_all
  | _ => simp_all [Body.source]

/-- The literal with the given body. -/
def Body.reading (quote : Char) (body : Body) : Reading :=
  if body.closed then
    .lexeme
      { kind := .string, value := body.value, first := quote, more := body.raw ++ [quote] }
      body.rest
  else .fault (.unterminatedString (String.singleton quote)) [] (quote :: body.raw) body.rest

/-- Read a literal that starts with the given quote. -/
def read (quote : Char) (text : List Char) : Reading :=
  (readBody quote text).reading quote

@[simp] theorem source_read (quote : Char) (text : List Char) :
    (read quote text).source = quote :: text := by
  have hSource := source_readBody quote text
  unfold read Body.reading
  cases hClosed : (readBody quote text).closed <;>
    simp_all [Reading.source, Lexeme.raw, Body.source]

/-- Pass over a literal without taking its meaning, given the text after its opening quote: the
characters passed, a closing quote included, and the text after them. -/
def skip (quote : Char) : List Char → List Char × List Char
  | [] => ([], [])
  | c :: rest =>
      if c = quote then ([c], rest)
      else if c = '\n' then ([], c :: rest)
      else if c = '\\' then
        match rest with
        | [] => ([c], [])
        | e :: more => let (passed, after) := skip quote more; (c :: e :: passed, after)
      else let (passed, after) := skip quote rest; (c :: passed, after)

theorem skip_append (quote : Char) (text : List Char) :
    (skip quote text).1 ++ (skip quote text).2 = text := by
  fun_induction skip quote text <;> simp_all

theorem skip_length_le (quote : Char) (text : List Char) :
    (skip quote text).2.length ≤ text.length := by
  have hLength := congrArg List.length (skip_append quote text)
  simp only [List.length_append] at hLength
  omega

end FlatSyntax.Literal
