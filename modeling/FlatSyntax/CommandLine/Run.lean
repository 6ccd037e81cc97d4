import FlatSyntax.Analysis
import FlatSyntax.CommandLine.Request
import FlatSyntax.Completion
import FlatSyntax.Outline

/-!
Running a command line: from its arguments, the environment and the files to an exit code and two
streams of text.
-/

namespace FlatSyntax

def version : String := "0.1.0"

namespace CommandLine

/-- What a command finds: the lines it shows and what the front end reports on the way. -/
structure Findings where
  lines : List String
  log : List LogRow := []
deriving DecidableEq, Repr

/-- A line of the given number of dashes. -/
def rule (width : Nat) : String :=
  String.ofList (List.replicate width '-')

/-- The row of the symbol listing. -/
def symbolRow (kind name position : String) : String :=
  Text.padRight 10 kind ++ " " ++ Text.padRight 20 name ++ " " ++ Text.padLeft 8 position

/-- The lines for a symbol, with its documentation below where details are asked for. -/
def symbolLines (verbose : Bool) (symbol : Symbol) : List String :=
  symbolRow symbol.kind.word symbol.name symbol.position.text ::
    if verbose && !symbol.doc.isEmpty then ["    " ++ symbol.doc] else []

def tokenLines (verbose : Bool) (tokens : List Token) : List String :=
  tokens.map (·.render) ++
    if verbose then ["Total: " ++ toString tokens.length ++ " tokens"] else []

def nodeLines (invocation : Invocation) (color : Bool) (analysis : Analysis) : List String :=
  let nodes := if invocation.declarationsOnly then analysis.declarations else analysis.nodes
  (if nodes.isEmpty then [] else [Node.dump color nodes]) ++
    if invocation.verbose then
      ["Tokenized: " ++ toString analysis.tokens.length ++ " tokens",
       "Parsed: " ++ toString analysis.nodes.length ++ " nodes, " ++
         toString analysis.declarations.length ++ " declarations"]
    else []

def tableLines (verbose : Bool) (table : SymbolTable) : List String :=
  symbolRow "Kind" "Name" "Position" :: rule 40 ::
    (table.symbols.flatMap (symbolLines verbose) ++
      if verbose then [rule 40, "Total: " ++ toString table.size ++ " symbols"] else [])

def outlineLines (table : SymbolTable) : List String :=
  match outline table.symbols with
  | [] => ["No declarations found"]
  | entries => entries.map (·.text)

def completionLines (verbose : Bool) (table : SymbolTable) (typed : String) : List String :=
  (complete table.symbols typed).map fun item =>
    if verbose then Text.padRight 20 item.label ++ " " ++ item.detail else item.label

namespace Invocation

/-- The options of an invocation: those of the environment, unless the command line sets them. -/
def options (invocation : Invocation) (environment : Environment) : Options × List LogRow :=
  let (options, rows) := Options.ofEnvironment environment
  ({ options with
      jsonMode := invocation.jsonMode.getD options.jsonMode,
      color := invocation.color.getD options.color }, rows)

/-- What a command finds in its source file. Tokens are listed without parsing. -/
def findings (invocation : Invocation) (files : FileSystem) (options : Options)
    (codecs : Codecs := noCodecs) : Except Failure Findings :=
  match invocation.command with
  | .tokens =>
      let file := FilePath.normalize invocation.path
      match Analysis.readSource files file options.encoding codecs with
      | .error failure => .error failure
      | .ok source =>
          match Analysis.tokensOf source file with
          | .error diagnostic => .error (.diagnosed diagnostic)
          | .ok tokens => .ok { lines := tokenLines invocation.verbose tokens }
  | command =>
      match Analysis.ofFile files invocation.path options.encoding options.jsonMode codecs with
      | .error failure => .error failure
      | .ok analysis =>
          let lines :=
            match command with
            | .ast => nodeLines invocation options.color analysis
            | .symbols => tableLines invocation.verbose analysis.table
            | .outline => outlineLines analysis.table
            | _ => completionLines invocation.verbose analysis.table invocation.typed
          .ok { lines, log := analysis.log }

end Invocation

/-- What a run leaves behind. -/
structure Output where
  exitCode : Nat
  out : String := ""
  err : String := ""
deriving DecidableEq, Repr

/-- Where both streams go. -/
inductive Screen where
  | terminal
  | redirected
deriving DecidableEq, Repr

namespace Screen

/-- A message in the form in which it is shown: off the terminal without terminal sequences. -/
def shown (screen : Screen) (message : String) : String :=
  match screen with
  | terminal => message
  | redirected => String.ofList (Text.Terminal.strip message.toList)

/-- Messages as they are shown, each ended by a line feed. -/
def display (screen : Screen) (messages : List String) : String :=
  String.join (messages.map fun message => screen.shown message ++ "\n")

/-- Lines that are written without a look at their text. -/
def write (lines : List String) : String :=
  String.join (lines.map (· ++ "\n"))

/-- The log rows from a level on. -/
def logLines (debug : Bool) (rows : List LogRow) : List String :=
  let least := if debug then LogLevel.debug else LogLevel.warning
  (rows.filter fun row => least.severity ≤ row.level.severity).map (·.text)

end Screen

/-- Run an invocation. -/
def Invocation.run (invocation : Invocation) (files : FileSystem) (environment : Environment)
    (screen : Screen) (codecs : Codecs := noCodecs) : Output :=
  let (options, rows) := invocation.options environment
  match invocation.findings files options codecs with
  | .ok findings =>
      { exitCode := ExitCode.success.number, out := screen.display findings.lines,
        err := Screen.write (Screen.logLines invocation.debug (rows ++ findings.log)) }
  | .error failure =>
      { exitCode := failure.exitCode.number,
        err := Screen.write (Screen.logLines invocation.debug rows) ++
          screen.display failure.report ++ Screen.write (failure.trace invocation.verbose) }

/-- Run a command line. -/
def run (arguments : List String) (files : FileSystem) (environment : Environment)
    (screen : Screen) (codecs : Codecs := noCodecs) : Output :=
  match Request.ofArguments files arguments with
  | .error error =>
      { exitCode := ExitCode.invalidArguments.number, err := screen.display [error.message] }
  | .ok .version =>
      { exitCode := ExitCode.success.number, out := screen.display ["wyst, version " ++ version] }
  | .ok (.help context) =>
      { exitCode := ExitCode.success.number, out := screen.display ["Usage: " ++ context.usage] }
  | .ok (.run invocation) => invocation.run files environment screen codecs

end CommandLine

end FlatSyntax
