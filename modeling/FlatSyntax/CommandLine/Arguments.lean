import FlatSyntax.FileSystem

/-!
Arguments of the command line: which switches the program and its commands know, and how a list of
arguments is split into switches and operands.
-/

namespace FlatSyntax.CommandLine

inductive Command where
  | tokens
  | ast
  | symbols
  | outline
  | complete
deriving DecidableEq, Repr

namespace Command

def all : List Command := [tokens, ast, symbols, outline, complete]

def name : Command → String
  | tokens => "tokens"
  | ast => "ast"
  | symbols => "symbols"
  | outline => "outline"
  | complete => "complete"

def ofName? (name : String) : Option Command :=
  all.find? (·.name == name)

/-- Whether the command takes the start of a name after the source file. -/
def takesTyped : Command → Bool
  | complete => true
  | _ => false

end Command

/-- Whose arguments are read. -/
inductive Context where
  | program
  | command (command : Command)
deriving DecidableEq, Repr

inductive Switch where
  | help
  | version
  | debug
  | verbose
  | declarationsOnly
  | jsonMode (on : Bool)
  | color (on : Bool)
deriving DecidableEq, Repr

/-- What is wrong with a command line. -/
inductive UsageProblem where
  | noSuchOption (name : String)
  | takesNoValue (name : String)
  | missingCommand
  | noSuchCommand (name : String)
  | missingSourceFile
  | sourceFileMissing (path : String)
  | sourceFileIsDirectory (path : String)
  | extraArguments (arguments : List String)
deriving DecidableEq, Repr

namespace UsageProblem

def message : UsageProblem → String
  | noSuchOption name => "No such option: " ++ name
  | takesNoValue name => "Option " ++ Text.quoted name ++ " does not take a value."
  | missingCommand => "Missing command."
  | noSuchCommand name => "No such command " ++ Text.quoted name ++ "."
  | missingSourceFile => "Missing argument 'SOURCE_FILE'."
  | sourceFileMissing path =>
      "Invalid value for 'SOURCE_FILE': File " ++ Text.quoted path ++ " does not exist."
  | sourceFileIsDirectory path =>
      "Invalid value for 'SOURCE_FILE': File " ++ Text.quoted path ++ " is a directory."
  | extraArguments arguments =>
      (if arguments.length = 1 then "Got unexpected extra argument ("
        else "Got unexpected extra arguments (") ++ " ".intercalate arguments ++ ")"

end UsageProblem

namespace Context

/-- The words that call the program or the command. -/
def call : Context → String
  | program => "wyst"
  | command c => "wyst " ++ c.name

/-- How the program or the command is to be called. -/
def usage : Context → String
  | program => "wyst [OPTIONS] COMMAND [ARGS]..."
  | command c =>
      "wyst " ++ c.name ++ " [OPTIONS] SOURCE_FILE" ++
        if c.takesTyped then " [PREFIX]" else ""

def jsonModeSwitches : List (String × Switch) :=
  [("--json-mode", .jsonMode true), ("--no-json-mode", .jsonMode false)]

/-- The switches with a name of several letters. -/
def longSwitches : Context → List (String × Switch)
  | program => [("--debug", .debug), ("--version", .version), ("--help", .help)]
  | command .ast =>
      jsonModeSwitches ++
        [("--color", .color true), ("--no-color", .color false),
         ("--declarations-only", .declarationsOnly), ("--verbose", .verbose), ("--help", .help)]
  | command .symbols => jsonModeSwitches ++ [("--verbose", .verbose), ("--help", .help)]
  | command _ => [("--verbose", .verbose), ("--help", .help)]

/-- The switches with a name of one letter. -/
def shortSwitches : Context → List (Char × Switch)
  | program => [('V', .version)]
  | command .ast => [('d', .declarationsOnly), ('v', .verbose)]
  | command _ => [('v', .verbose)]

/-- Whether switches are still looked for after the first operand. -/
def mixesOperands : Context → Bool
  | program => false
  | command _ => true

/-- The switches of a joined group of letters. -/
def readLetters (context : Context) : List Char → Except UsageProblem (List Switch)
  | [] => .ok []
  | letter :: more =>
      match context.shortSwitches.lookup letter with
      | none => .error (.noSuchOption (String.ofList ['-', letter]))
      | some switch => (context.readLetters more).map (switch :: ·)

/-- The switches of one argument that starts with a dash. A long name is tried first, even for a
single dash; no switch takes a value. -/
def readSwitches (context : Context) (argument : List Char) : Except UsageProblem (List Switch) :=
  let name := argument.takeWhile (· != '=')
  match context.longSwitches.lookup (String.ofList name) with
  | some switch =>
      if name = argument then .ok [switch] else .error (.takesNoValue (String.ofList name))
  | none =>
      if ['-', '-'].isPrefixOf argument then .error (.noSuchOption (String.ofList name))
      else context.readLetters argument.tail

/-- Whether an argument is read as switches: it starts with a dash and is more than that. -/
def isSwitch : List Char → Bool
  | '-' :: _ :: _ => true
  | _ => false

/-- Split arguments into switches and operands. Two dashes alone end the switches. -/
def split (context : Context) : List String → Except UsageProblem (List Switch × List String)
  | [] => .ok ([], [])
  | argument :: more =>
      if argument = "--" then .ok ([], more)
      else if isSwitch argument.toList then
        match context.readSwitches argument.toList, context.split more with
        | .error problem, _ => .error problem
        | .ok _, .error problem => .error problem
        | .ok switches, .ok (others, operands) => .ok (switches ++ others, operands)
      else if context.mixesOperands then
        (context.split more).map fun (switches, operands) => (switches, argument :: operands)
      else .ok ([], argument :: more)

end Context

end FlatSyntax.CommandLine
