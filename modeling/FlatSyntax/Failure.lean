import FlatSyntax.Diagnostic
import FlatSyntax.FileSystem
import FlatSyntax.Text.Encoding

/-!
Failures: everything that can keep a source file from being analyzed, and what a command reports
about it.
-/

namespace FlatSyntax

/-- The classes of failures that are told apart by nothing but a text. -/
inductive FailureClass where
  /-- A failure of the tool chain without a diagnostic. -/
  | toolchain
  | badParameter
  | missingFile
  | noPermission
  | runtime
  | value
  /-- A missing key, whose message is the quoted key. -/
  | key
deriving DecidableEq, Repr

inductive Failure where
  | diagnosed (diagnostic : Diagnostic)
  /-- A path leads to no file. -/
  | file (fault : FileFault) (path : String)
  | unknownEncoding (name : String)
  | undecodable (error : Text.Encoding.DecodeError)
  | stated (failureClass : FailureClass) (text : String)
deriving DecidableEq, Repr

/-- The codes with which commands end. -/
inductive ExitCode where
  | success
  /-- The source text cannot be processed. -/
  | buildError
  /-- The command line is wrong or a file is missing. -/
  | invalidArguments
  | internalError
deriving DecidableEq, Repr

namespace ExitCode

def all : List ExitCode := [success, buildError, invalidArguments, internalError]

def number : ExitCode → Nat
  | success => 0
  | buildError => 1
  | invalidArguments => 2
  | internalError => 3

def name : ExitCode → String
  | success => "SUCCESS"
  | buildError => "BUILD_ERROR"
  | invalidArguments => "INVALID_ARGS"
  | internalError => "INTERNAL_ERROR"

end ExitCode

namespace Failure

def message : Failure → String
  | diagnosed diagnostic => diagnostic.message
  | file fault path => fault.message path
  | unknownEncoding name => "unknown encoding: " ++ name
  | undecodable error => error.message
  | stated .key text => Text.quoted text
  | stated _ text => text

/-- The code with which a command ends after a failure. -/
def exitCode : Failure → ExitCode
  | diagnosed { problem := .parserStalled .., .. } => .internalError
  | diagnosed _ => .buildError
  | file .notFound _ => .invalidArguments
  | file _ _ => .internalError
  | unknownEncoding _ => .internalError
  | undecodable (.malformed _) => .buildError
  | undecodable .missingMark => .internalError
  | stated .toolchain _ => .buildError
  | stated .badParameter _ | stated .missingFile _ | stated .noPermission _ => .invalidArguments
  | stated .runtime _ | stated .value _ | stated .key _ => .internalError

/-- The message under the heading that fits the exit code. Diagnostics of source text bring their
own heading. -/
def headedMessage (failure : Failure) : String :=
  match failure.exitCode, failure with
  | .internalError, _ => "Internal error: " ++ failure.message
  | _, diagnosed _ | _, stated .toolchain _ => failure.message
  | _, undecodable _ => "Error: cannot decode source file: " ++ failure.message
  | _, _ => "Error: " ++ failure.message

/-- The trace that follows the report of an internal error. A failure is a value here and carries no
trace, so the line says that there is none. -/
def traceLine : String := "NoneType: None"

/-- The messages with which a command reports a failure. -/
def report (failure : Failure) : List String :=
  [failure.headedMessage]

/-- The lines after the report, written as they are. Only an internal error has any, and only where
details are asked for. -/
def trace (failure : Failure) (verbose : Bool) : List String :=
  if verbose && failure.exitCode == .internalError then [traceLine] else []

end Failure

end FlatSyntax
