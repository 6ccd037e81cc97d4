import FlatSyntax.Failure
import FlatSyntax.Options
import FlatSyntax.Parser
import FlatSyntax.Scanner.Scan

/-!
Analyses: a source text scanned and parsed with a fresh symbol table. The source text of a file is
read in an encoding; which ones there are beside those that every system has is up to the system.
-/

namespace FlatSyntax

/-- What an encoding makes of the bytes of a file. -/
abbrev Decoder := List UInt8 → Except Failure (List Char)

/-- The encodings of a system beside those that every system has, by all the names that it knows
them under. -/
abbrev Codecs := String → Option Decoder

/-- A system without further encodings. -/
def noCodecs : Codecs := fun _ => none

/-- The decoder for the name of an encoding. -/
def decoder? (codecs : Codecs) (name : String) : Option Decoder :=
  match Text.Encoding.ofName? name with
  | some encoding => some fun bytes => (encoding.decode bytes).mapError .undecodable
  | none => codecs name

structure Analysis where
  file : String
  tokens : List Token
  nodes : List Node
  table : SymbolTable
  /-- What the analysis reports about itself. -/
  log : List LogRow
deriving DecidableEq, Repr

namespace Analysis

/-- The nodes that are declarations. -/
def declarations (analysis : Analysis) : List Node :=
  Node.declarations analysis.nodes

/-- The tokens of a source text, or the diagnostic of the first problem in it. -/
def tokensOf (source file : String) : Except Diagnostic (List Token) :=
  let scan := scanSource source file 1
  match scan.problem with
  | some diagnostic => .error diagnostic
  | none => .ok scan.tokens

/-- Analyze the tokens of a source text. -/
def ofTokens (tokens : List Token) (file : String) (jsonMode : Bool) :
    Except Diagnostic Analysis :=
  let parser : Parser := { tokens, rules := { jsonMode } }
  let parsed := parser.parse
  match parsed.nodes with
  | .error diagnostic => .error diagnostic
  | .ok nodes =>
      let table := parsed.parser.table
      .ok
        { file, tokens, nodes, table,
          log := parsed.log ++ [.analyzed file tokens.length nodes.length table.size] }

/-- Analyze a source text. -/
def ofSource (source file : String) (jsonMode : Bool) : Except Diagnostic Analysis :=
  match tokensOf source file with
  | .error diagnostic => .error diagnostic
  | .ok tokens => ofTokens tokens file jsonMode

/-- The source text of a file: its bytes decoded, with every kind of line break that files use
written as a line feed. -/
def sourceOfBytes (bytes : List UInt8) (encoding : String) (codecs : Codecs := noCodecs) :
    Except Failure String :=
  match decoder? codecs encoding with
  | none => .error (.unknownEncoding encoding)
  | some decode => (decode bytes).map fun text => String.ofList (Text.normalizeNewlines text)

/-- Read the source text at a path, which is to be in its normal form. -/
def readSource (files : FileSystem) (path encoding : String) (codecs : Codecs := noCodecs) :
    Except Failure String :=
  match files.read path with
  | .error fault => .error (.file fault path)
  | .ok bytes => sourceOfBytes bytes encoding codecs

/-- Analyze the file at a path. The file goes by the normal form of the path. -/
def ofFile (files : FileSystem) (path encoding : String) (jsonMode : Bool)
    (codecs : Codecs := noCodecs) : Except Failure Analysis :=
  let file := FilePath.normalize path
  match readSource files file encoding codecs with
  | .error failure => .error failure
  | .ok source => (ofSource source file jsonMode).mapError .diagnosed

end Analysis

end FlatSyntax
