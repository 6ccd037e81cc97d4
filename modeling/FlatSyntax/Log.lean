import FlatSyntax.SymbolTable
import FlatSyntax.Text.Quoted

/-!
Log rows: what the front end reports about its own work.
-/

namespace FlatSyntax

inductive LogLevel where
  | debug
  | info
  | warning
deriving DecidableEq, Repr

namespace LogLevel

def name : LogLevel → String
  | debug => "DEBUG"
  | info => "INFO"
  | warning => "WARNING"

/-- The order of severity. -/
def severity : LogLevel → Nat
  | debug => 0
  | info => 1
  | warning => 2

end LogLevel

structure LogRow where
  level : LogLevel
  /-- The part of the front end that reports. -/
  reporter : String
  message : String
deriving DecidableEq, Repr

namespace LogRow

/-- The reporter of everything that happens on the way through a token buffer. -/
def parserName : String := "wyst.frontend.parser"

/-- The reporter of settings and of whole runs. -/
def pipelineName : String := "wyst.frontend.pipeline"

/-- The line that shows a row. -/
def text (row : LogRow) : String :=
  row.level.name ++ " " ++ row.reporter ++ ": " ++ row.message

/-- A declaration was registered. -/
def registered (symbol : Symbol) : LogRow :=
  { level := .debug, reporter := parserName,
    message := "Registered " ++ symbol.kind.word ++ " '" ++ symbol.name ++ "' at " ++
      symbol.position.text }

/-- An include directive has no known form. -/
def unknownInclude (directive : String) : LogRow :=
  { level := .debug, reporter := parserName,
    message := "Unrecognized include form: " ++ Text.quoted directive }

/-- A parse went through to the end of the buffer. -/
def parsed (tokens nodes declarations : Nat) : LogRow :=
  { level := .debug, reporter := parserName,
    message := "Parsed " ++ toString tokens ++ " tokens into " ++ toString nodes ++ " nodes (" ++
      toString declarations ++ " declarations)" }

/-- A source text was analyzed. -/
def analyzed (file : String) (tokens nodes symbols : Nat) : LogRow :=
  { level := .info, reporter := pipelineName,
    message := file ++ ": " ++ toString tokens ++ " tokens, " ++ toString nodes ++ " nodes, " ++
      toString symbols ++ " symbols" }

/-- The value of a variable of the environment is not understood. -/
def ignoredSetting (variableName value : String) : LogRow :=
  { level := .warning, reporter := pipelineName,
    message := "Ignoring invalid " ++ variableName ++ " value " ++ Text.quoted value }

end LogRow

end FlatSyntax
