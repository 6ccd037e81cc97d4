import FlatSyntax.CommandLine.Run

/-!
The program: reads its surroundings, runs the command line and writes what it leaves behind. A path
that matters can only be one of the arguments, so exactly these are looked up beforehand.
-/

namespace FlatSyntax.CommandLine

/-- The number of the system's fault for a directory where a file is wanted. -/
def directoryFaultNumber : UInt32 := 21

/-- Look a path up on disk. -/
def probe (path : String) : IO (Except FileFault FileEntry) := do
  try
    let bytes ← IO.FS.readBinFile path
    return .ok (.file bytes.toList)
  catch error =>
    match error with
    | .inappropriateType _ number _ =>
        return if number = directoryFaultNumber then .ok .directory else .error .notDirectory
    | _ => return .error .notFound

/-- The file system as far as it is looked up. -/
def probeAll (paths : List String) : IO FileSystem := do
  let found ← paths.mapM fun path => return (path, ← probe path)
  return fun path => (found.lookup path).getD (.error .notFound)

def surroundings : IO Environment := do
  let jsonMode ← IO.getEnv Options.jsonModeVariable
  let color ← IO.getEnv Options.colorVariable
  let encoding ← IO.getEnv Options.encodingVariable
  return { jsonMode, color, encoding }

/-- Run the command line in its surroundings; the result is the exit code. -/
def execute (arguments : List String) : IO UInt32 := do
  let files ← probeAll (arguments ++ arguments.map FilePath.normalize)
  let environment ← surroundings
  let out ← IO.getStdout
  let err ← IO.getStderr
  let onTerminal ← out.isTty
  let output := run arguments files environment (if onTerminal then .terminal else .redirected)
  out.putStr output.out
  err.putStr output.err
  return UInt32.ofNat output.exitCode

end FlatSyntax.CommandLine

def main (arguments : List String) : IO UInt32 :=
  FlatSyntax.CommandLine.execute arguments
