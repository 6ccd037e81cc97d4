import FlatSyntax.CommandLine.Arguments

/-!
Requests: what a command line asks the program to do, once its arguments are found to be in order.
-/

namespace FlatSyntax.CommandLine

/-- A command with its source file and settings. A setting that is not given on the command line is
left to the environment. -/
structure Invocation where
  command : Command
  path : String
  /-- The start of the names that are asked for. -/
  typed : String := ""
  jsonMode : Option Bool := none
  color : Option Bool := none
  declarationsOnly : Bool := false
  verbose : Bool := false
  debug : Bool := false
deriving DecidableEq, Repr

inductive Request where
  | version
  | help (context : Context)
  | run (invocation : Invocation)
deriving DecidableEq, Repr

/-- A usage problem and whose arguments it was found in. -/
structure UsageError where
  context : Context
  problem : UsageProblem
deriving DecidableEq, Repr

namespace UsageError

/-- The message for a usage error. A value for a switch is reported without the usage. -/
def message (error : UsageError) : String :=
  let problem := "Error: " ++ error.problem.message
  match error.problem with
  | .takesNoValue _ => problem
  | _ =>
      "Usage: " ++ error.context.usage ++ "\nTry '" ++ error.context.call ++
        " --help' for help.\n\n" ++ problem

end UsageError

namespace Invocation

/-- Apply a switch. Of switches that contradict each other the last one counts. -/
def apply (invocation : Invocation) : Switch → Invocation
  | .debug => { invocation with debug := true }
  | .verbose => { invocation with verbose := true }
  | .declarationsOnly => { invocation with declarationsOnly := true }
  | .jsonMode on => { invocation with jsonMode := some on }
  | .color on => { invocation with color := some on }
  | .help | .version => invocation

end Invocation

namespace Request

/-- The request of the first switch that makes all other arguments irrelevant. -/
def ofSwitches? (context : Context) : List Switch → Option Request
  | [] => none
  | .help :: _ => some (.help context)
  | .version :: _ => some .version
  | _ :: more => ofSwitches? context more

/-- The request of a command, given its arguments and the switches of the program. -/
def ofCommand (files : FileSystem) (command : Command) (outer : List Switch)
    (arguments : List String) : Except UsageProblem Request :=
  let context := Context.command command
  match context.split arguments with
  | .error problem => .error problem
  | .ok (switches, operands) =>
      match ofSwitches? context switches, operands with
      | some request, _ => .ok request
      | none, [] => .error .missingSourceFile
      | none, path :: more =>
          match files path with
          | .error _ => .error (.sourceFileMissing path)
          | .ok .directory => .error (.sourceFileIsDirectory path)
          | .ok (.file _) =>
              let typed := if command.takesTyped then more.take 1 else []
              let extra := more.drop typed.length
              if extra.isEmpty then
                let plain : Invocation := { command, path, typed := typed.headD "" }
                .ok (.run ((outer ++ switches).foldl .apply plain))
              else .error (.extraArguments extra)

/-- The request of a list of arguments. Where no command has the name given, the name and what
follows it are read once more as arguments of the program, which matters if the name looks like a
switch. -/
def ofArguments (files : FileSystem) (arguments : List String) : Except UsageError Request :=
  let fault problem := .error { context := .program, problem }
  if arguments.isEmpty then .ok (.help .program)
  else
    match Context.program.split arguments with
    | .error problem => fault problem
    | .ok (switches, operands) =>
        match ofSwitches? .program switches, operands with
        | some request, _ => .ok request
        | none, [] => fault .missingCommand
        | none, name :: more =>
            match Command.ofName? name with
            | some command =>
                (ofCommand files command switches more).mapError fun problem =>
                  { context := .command command, problem }
            | none =>
                match Context.program.split (name :: more) with
                | .error problem => fault problem
                | .ok (inner, _) =>
                    match ofSwitches? .program inner with
                    | some request => .ok request
                    | none => fault (.noSuchCommand name)

end Request

end FlatSyntax.CommandLine
