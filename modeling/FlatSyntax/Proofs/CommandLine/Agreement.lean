import FlatSyntax.CommandLine.Run
import FlatSyntax.Proofs.Analysis
import FlatSyntax.Proofs.FileSystem.NormalForm
import FlatSyntax.Proofs.Scanner.Diagnosis
import FlatSyntax.Proofs.Text.Encoding
import FlatSyntax.Proofs.Text.Lines

/-! The commands against each other. Every command first gets the tokens of its source file, and
nothing that it does with these can fail. So all commands fail on the same files and in the same
way, with nothing shown. -/
namespace FlatSyntax

namespace Analysis

variable {files : FileSystem} {path encoding : String} {codecs : Codecs}

/-- The tokens of the file at a path. -/
def tokensOfFile (files : FileSystem) (path encoding : String) (codecs : Codecs) :
    Except Failure (List Token) :=
  let file := FilePath.normalize path
  match readSource files file encoding codecs with
  | .error failure => .error failure
  | .ok source => (tokensOf source file).mapError .diagnosed

theorem exists_ofFile_eq_map (files : FileSystem) (path encoding : String) (jsonMode : Bool)
    (codecs : Codecs) :
    ∃ analyze, ofFile files path encoding jsonMode codecs =
      (tokensOfFile files path encoding codecs).map analyze := by
  choose analyze hAnalyze using fun tokens =>
    exists_ofTokens tokens (FilePath.normalize path) jsonMode
  refine ⟨analyze, ?_⟩
  cases hSource : readSource files (FilePath.normalize path) encoding codecs with
  | error => simp only [ofFile, tokensOfFile, hSource, Except.map]
  | ok source =>
      simp only [ofFile, tokensOfFile, hSource, ofSource]
      cases tokensOf source (FilePath.normalize path) with
      | error => rfl
      | ok tokens => exact congrArg (Except.mapError Failure.diagnosed) (hAnalyze tokens).1

/-- No problem of a source text is one of the parser. -/
theorem exitCode_of_problem {source file : String} {line : Int} {diagnostic : Diagnostic}
    (hProblem : (scanSource source file line).problem = some diagnostic) :
    (Failure.diagnosed diagnostic).exitCode = .buildError := by
  have hPoints : diagnostic.PointsInto source.toList file line :=
    (Cursor.tracks_start source.toList line).scan_problem hProblem
  cases hPoints with
  | intro hLine hMarks => cases hMarks <;> rfl

/-- Where bytes can be read, they give tokens just if they are text that scans without a problem,
and any failure is one of the source text. -/
theorem tokensOfFile_of_decode {name : String} {encoding : Text.Encoding} {bytes : List UInt8}
    (hFile : files (FilePath.normalize path) = .ok (.file bytes))
    (hName : Text.Encoding.ofName? name = some encoding) (hEncoding : encoding ≠ .utf16) :
    ((∃ tokens, tokensOfFile files path name codecs = .ok tokens) ↔
        ∃ text, encoding.decode bytes = .ok text ∧
          (scanSource (String.ofList (Text.normalizeNewlines text)) (FilePath.normalize path)
            1).problem = none) ∧
      ∀ failure, tokensOfFile files path name codecs = .error failure →
        failure.exitCode = .buildError := by
  have hSource : readSource files (FilePath.normalize path) name codecs =
      ((encoding.decode bytes).mapError .undecodable).map
        fun text => String.ofList (Text.normalizeNewlines text) := by
    simp only [readSource, FileSystem.read, hFile, sourceOfBytes, decoder?, hName]
  cases hDecode : encoding.decode bytes with
  | error error =>
      obtain ⟨fault, rfl⟩ := Text.Encoding.exists_fault_of_decode hEncoding hDecode
      have hTokens : tokensOfFile files path name codecs =
          .error (.undecodable (.malformed fault)) := by
        simp only [tokensOfFile, hSource, hDecode, Except.mapError, Except.map]
      rw [hTokens]
      refine ⟨⟨?_, ?_⟩, ?_⟩
      · rintro ⟨tokens, ⟨⟩⟩
      · rintro ⟨text, ⟨⟩, -⟩
      · rintro failure ⟨⟩
        rfl
  | ok text =>
      let source := String.ofList (Text.normalizeNewlines text)
      have hTokens : tokensOfFile files path name codecs =
          (tokensOf source (FilePath.normalize path)).mapError .diagnosed := by
        simp only [tokensOfFile, hSource, hDecode, source]
        rfl
      rw [hTokens]
      cases hProblem : (scanSource source (FilePath.normalize path) 1).problem with
      | none =>
          rw [tokensOf_of_clean hProblem]
          refine ⟨⟨fun _ => ⟨text, rfl, hProblem⟩, fun _ => ⟨_, rfl⟩⟩, ?_⟩
          rintro failure ⟨⟩
      | some diagnostic =>
          rw [tokensOf_of_problem hProblem]
          refine ⟨⟨?_, ?_⟩, ?_⟩
          · rintro ⟨tokens, ⟨⟩⟩
          · rintro ⟨other, ⟨⟩, hClean⟩
            rw [hClean] at hProblem
            cases hProblem
          · rintro failure ⟨⟩
            exact exitCode_of_problem hProblem

end Analysis

namespace CommandLine.Invocation

/-- Every command shows the tokens of its file in its own way. -/
theorem exists_findings_eq_map (invocation : Invocation) (files : FileSystem) (options : Options)
    (codecs : Codecs) :
    ∃ showing, invocation.findings files options codecs =
      (Analysis.tokensOfFile files invocation.path options.encoding codecs).map showing := by
  obtain ⟨analyze, hAnalyze⟩ :=
    Analysis.exists_ofFile_eq_map files invocation.path options.encoding options.jsonMode codecs
  cases hCommand : invocation.command with
  | tokens =>
      refine ⟨fun tokens => { lines := tokenLines invocation.verbose tokens }, ?_⟩
      cases hSource : Analysis.readSource files (FilePath.normalize invocation.path)
        options.encoding codecs with
      | error => simp only [findings, hCommand, Analysis.tokensOfFile, hSource, Except.map]
      | ok source =>
          simp only [findings, hCommand, Analysis.tokensOfFile, hSource]
          cases Analysis.tokensOf source (FilePath.normalize invocation.path) <;> rfl
  | ast | symbols | outline | complete =>
      simp only [findings, hCommand, hAnalyze]
      cases Analysis.tokensOfFile files invocation.path options.encoding codecs with
      | error => exact ⟨fun _ => ⟨[], []⟩, rfl⟩
      | ok tokens => exact ⟨fun _ => _, rfl⟩

/-- What is left behind where the tokens of the file cannot be had and no details are asked for.
Nothing of it depends on the command. -/
def failedOutput (failure : Failure) (environment : Environment) (screen : Screen) : Output :=
  { exitCode := failure.exitCode.number
    err := Screen.write (Screen.logLines false (Options.ofEnvironment environment).2) ++
      screen.display failure.report }

variable {invocation : Invocation} {files : FileSystem} {environment : Environment}
  {codecs : Codecs}

theorem run_of_error (hVerbose : invocation.verbose = false) (hDebug : invocation.debug = false)
    {failure : Failure}
    (hTokens : Analysis.tokensOfFile files invocation.path
      (Options.ofEnvironment environment).1.encoding codecs = .error failure) (screen : Screen) :
    invocation.run files environment screen codecs = failedOutput failure environment screen := by
  obtain ⟨showing, hFindings⟩ :=
    exists_findings_eq_map invocation files (invocation.options environment).1 codecs
  have hFailed : invocation.findings files (invocation.options environment).1 codecs =
      .error failure :=
    hFindings.trans (congrArg (Except.map showing) hTokens)
  simp only [run, hFailed, hVerbose, hDebug, Failure.trace, Bool.false_and]
  exact congrArg (Output.mk _ _) (String.append_empty)

theorem exitCode_run_of_ok {tokens : List Token}
    (hTokens : Analysis.tokensOfFile files invocation.path
      (Options.ofEnvironment environment).1.encoding codecs = .ok tokens) (screen : Screen) :
    (invocation.run files environment screen codecs).exitCode = 0 := by
  obtain ⟨showing, hFindings⟩ :=
    exists_findings_eq_map invocation files (invocation.options environment).1 codecs
  have hFound : invocation.findings files (invocation.options environment).1 codecs =
      .ok (showing tokens) :=
    hFindings.trans (congrArg (Except.map showing) hTokens)
  simp only [run, hFound]
  rfl

end CommandLine.Invocation

namespace CommandLine

variable {files : FileSystem} {path : String} {bytes : List UInt8} {environment : Environment}
  {arguments : List String} {command : Command} {codecs : Codecs}

/-- Arguments that make the program run a command on a path, without details and without the log of
the parser. -/
def AsksPlainly (files : FileSystem) (arguments : List String) (command : Command)
    (path : String) : Prop :=
  ∃ invocation, Request.ofArguments files arguments = .ok (.run invocation) ∧
    invocation.command = command ∧ invocation.path = path ∧
    invocation.verbose = false ∧ invocation.debug = false

/-- Every command can be asked for plainly, whatever the path to the file looks like. -/
theorem asksPlainly_of_file (hFile : files path = .ok (.file bytes)) (command : Command) :
    AsksPlainly files [command.name, "--", path] command path := by
  refine ⟨{ command, path }, ?_, rfl, rfl, rfl, rfl⟩
  have hOperands : Context.program.split [command.name, "--", path] =
      .ok ([], [command.name, "--", path]) := by
    cases command <;> rfl
  have hName : Command.ofName? command.name = some command := by
    cases command <;> decide
  have hPath : (Context.command command).split ["--", path] = .ok ([], [path]) := rfl
  simp [Request.ofArguments, Request.ofCommand, hOperands, hName, hPath, hFile,
    Request.ofSwitches?, Except.mapError]

theorem AsksPlainly.run_of_error (hAsks : AsksPlainly files arguments command path)
    {failure : Failure}
    (hTokens : Analysis.tokensOfFile files path (Options.ofEnvironment environment).1.encoding
      codecs = .error failure) (screen : Screen) :
    run arguments files environment screen codecs =
      Invocation.failedOutput failure environment screen := by
  obtain ⟨invocation, hRequest, -, rfl, hVerbose, hDebug⟩ := hAsks
  simp only [run, hRequest]
  exact Invocation.run_of_error hVerbose hDebug hTokens screen

theorem AsksPlainly.exitCode_run_of_ok (hAsks : AsksPlainly files arguments command path)
    {tokens : List Token}
    (hTokens : Analysis.tokensOfFile files path (Options.ofEnvironment environment).1.encoding
      codecs = .ok tokens) (screen : Screen) :
    (run arguments files environment screen codecs).exitCode = 0 := by
  obtain ⟨invocation, hRequest, -, rfl, -, -⟩ := hAsks
  simp only [run, hRequest]
  exact Invocation.exitCode_run_of_ok hTokens screen

/-- The encoding that the environment asks for: the value of its variable, and the usual one where
the variable is not set or empty. -/
def Configures (environment : Environment) (name : String) : Prop :=
  environment.encoding = some name ∧ name ≠ "" ∨
    (environment.encoding = none ∨ environment.encoding = some "") ∧ name = "utf-8"

theorem Configures.encoding_eq {name : String} (hConfigures : Configures environment name) :
    (Options.ofEnvironment environment).1.encoding = name := by
  unfold Options.ofEnvironment
  rcases hConfigures with ⟨hValue, hName⟩ | ⟨hValue | hValue, rfl⟩
  · have hFull : name.isEmpty = false := by simpa using hName
    simp only [hValue, hFull, Bool.false_eq_true, if_false]
  · simp only [hValue]
  · simp only [hValue]
    rfl

/-- Commands fail together, whatever the environment sets and whichever encodings the system knows.
On a file that is there, the commands end with the same code, and if that is not zero they report
the same and show nothing. Where the normal form of the path leads to the file as well and the
encoding is one in which malformed bytes have a place, the code is zero just if the bytes are a text
written in it whose lines, each ended by a line feed, scan without a problem, and one otherwise. -/
theorem commands_fail_together (hFile : files path = .ok (.file bytes)) (environment : Environment)
    (codecs : Codecs) (screen : Screen) :
    let output (arguments : List String) : Output := run arguments files environment screen codecs
    (∀ command, ∃ arguments, AsksPlainly files arguments command path) ∧
      (∀ command command' arguments arguments', AsksPlainly files arguments command path →
        AsksPlainly files arguments' command' path →
          (output arguments).exitCode = (output arguments').exitCode ∧
            ((output arguments).exitCode ≠ 0 →
              (output arguments).err = (output arguments').err ∧
                (output arguments).out = "" ∧ (output arguments').out = "")) ∧
      (files.KeepsNormalForms →
        ∀ command arguments name encoding, AsksPlainly files arguments command path →
          Configures environment name → (name, encoding) ∈ Text.Encoding.placing →
            ((output arguments).exitCode = 0 ↔
              ∃ text source, encoding.Writes text bytes ∧ Text.SameLines text source ∧
                (scanSource (String.ofList source) (FilePath.normalize path) 1).problem = none) ∧
            ((output arguments).exitCode ≠ 0 → (output arguments).exitCode = 1)) := by
  intro output
  refine ⟨fun command => ⟨_, asksPlainly_of_file hFile command⟩, ?_, ?_⟩
  · intro command command' arguments arguments' hAsks hAsks'
    cases hTokens : Analysis.tokensOfFile files path
      (Options.ofEnvironment environment).1.encoding codecs with
    | ok tokens =>
        have hCode : (output arguments).exitCode = 0 := hAsks.exitCode_run_of_ok hTokens screen
        have hCode' : (output arguments').exitCode = 0 := hAsks'.exitCode_run_of_ok hTokens screen
        exact ⟨hCode.trans hCode'.symm, fun hOther => absurd hCode hOther⟩
    | error failure =>
        have hSame : output arguments = output arguments' :=
          (hAsks.run_of_error hTokens screen).trans (hAsks'.run_of_error hTokens screen).symm
        have hOut : (output arguments).out = "" :=
          congrArg Output.out (hAsks.run_of_error hTokens screen)
        rw [← hSame]
        exact ⟨rfl, fun _ => ⟨rfl, hOut, hOut⟩⟩
  · intro hKeeps command arguments name encoding hAsks hConfigures hEncoding
    obtain ⟨hName, hPlaces⟩ := Text.Encoding.ofName?_of_mem_placing _ hEncoding
    obtain ⟨hText, hSource⟩ :=
      Analysis.tokensOfFile_of_decode (hKeeps path bytes hFile) hName hPlaces
    simp only [← Text.Encoding.decode_eq_ok_iff, ← Text.normalizeNewlines_eq_iff, exists_and_left,
      exists_eq_left']
    rw [← hText]
    rw [← hConfigures.encoding_eq] at hSource ⊢
    cases hTokens : Analysis.tokensOfFile files path
      (Options.ofEnvironment environment).1.encoding codecs with
    | ok tokens =>
        have hCode : (output arguments).exitCode = 0 := hAsks.exitCode_run_of_ok hTokens screen
        exact ⟨⟨fun _ => ⟨tokens, rfl⟩, fun _ => hCode⟩, fun hOther => absurd hCode hOther⟩
    | error failure =>
        have hCode : (output arguments).exitCode = 1 := by
          simp only [output, hAsks.run_of_error hTokens screen, Invocation.failedOutput,
            hSource failure hTokens]
          rfl
        rw [hCode]
        refine ⟨⟨fun hZero => absurd hZero (by decide), ?_⟩, fun _ => rfl⟩
        rintro ⟨tokens, ⟨⟩⟩

/-- One file has a group that is not closed, behind two line breaks. The other ends in a byte that
is no text in the usual encoding and a letter in two others, one of which only some systems
know. -/
theorem commands_fail_together_unclosed :
    let files := ((FileTree.add {} "a" (.file [13, 10, 13, 120, 32, 40])).add "b"
      (.file [47, 47, 32, 233])).fileSystem
    let codecs : Codecs := fun name =>
      if name = "cp1252" then some fun bytes => .ok (bytes.map fun byte => Char.ofNat byte.toNat)
      else none
    let output (environment : Environment) (arguments : List String) : Output :=
      run arguments files environment .redirected codecs
    let western : Environment :=
      { jsonMode := some "On", color := some "maybe", encoding := some "latin-1" }
    let further : Environment := { color := some "no", encoding := some "cp1252" }
    files.KeepsNormalForms ∧ files "./a" = .ok (.file [13, 10, 13, 120, 32, 40]) ∧
      files "b" = .ok (.file [47, 47, 32, 233]) ∧
      (output {} ["tokens", "./a"]).exitCode = 1 ∧
      (output {} ["ast", "--json-mode", "./a"]).exitCode = 1 ∧
      (output {} ["ast", "--json-mode", "./a"]).out = "" ∧
      (output {} ["ast", "--json-mode", "./a"]).err =
        "a:3:3: error: unterminated '(' group\n    x (\n      ^\nhint: add the matching ')'\n" ∧
      output {} ["tokens", "b"] =
        { exitCode := 1
          err := "Error: cannot decode source file: 'utf-8' codec can't decode byte 0xe9 in " ++
            "position 3: unexpected end of data\n" } ∧
      output western ["tokens", "b"] =
        { exitCode := 0, out := "Token(COMMENT, 'é', 1:1)\n"
          err := "WARNING wyst.frontend.pipeline: Ignoring invalid WYST_COLOR value 'maybe'\n" } ∧
      (output western ["ast", "--json-mode", "b"]).exitCode = 0 ∧
      output further ["tokens", "b"] =
        { exitCode := 0, out := "Token(COMMENT, 'é', 1:1)\n", err := "" } ∧
      (output further ["ast", "--json-mode", "b"]).exitCode = 0 := by
  intro files codecs output western further
  have hKeeps : files.KeepsNormalForms := FileTree.fileSystem_keepsNormalForms _
  have hUnclosed : files "./a" = .ok (.file [13, 10, 13, 120, 32, 40]) := by decide +kernel
  have hLetter : files "b" = .ok (.file [47, 47, 32, 233]) := by decide +kernel
  have hTokens (path : String) (hPath : path = "./a" ∨ path = "b") :
      AsksPlainly files ["tokens", path] .tokens path := by
    refine ⟨{ command := .tokens, path }, ?_, rfl, rfl, rfl, rfl⟩
    rcases hPath with rfl | rfl <;> decide +kernel
  have hAst (path : String) (hPath : path = "./a" ∨ path = "b") :
      AsksPlainly files ["ast", "--json-mode", path] .ast path := by
    refine ⟨{ command := .ast, path, jsonMode := some true }, ?_, rfl, rfl, rfl, rfl⟩
    rcases hPath with rfl | rfl <;> decide +kernel
  have hUsual : Configures {} "utf-8" := Or.inr ⟨Or.inl rfl, rfl⟩
  have hWestern : Configures western "latin-1" := Or.inl ⟨rfl, by decide⟩
  -- the group that is not closed
  obtain ⟨-, hTogether, hSource⟩ := commands_fail_together hUnclosed {} codecs .redirected
  obtain ⟨hCodes, hReports⟩ :=
    hTogether _ _ _ _ (hTokens "./a" (Or.inl rfl)) (hAst "./a" (Or.inl rfl))
  have hFails : (output {} ["tokens", "./a"]).exitCode ≠ 0 := by decide +kernel
  obtain ⟨hErr, -, hOut⟩ := hReports hFails
  have hCode : (output {} ["tokens", "./a"]).exitCode = 1 :=
    (hSource hKeeps _ _ _ .utf8 (hTokens "./a" (Or.inl rfl)) hUsual (by decide)).2 hFails
  have hReport : (output {} ["tokens", "./a"]).err =
      "a:3:3: error: unterminated '(' group\n    x (\n      ^\nhint: add the matching ')'\n" := by
    decide +kernel
  -- the byte that is a letter
  obtain ⟨-, -, hText⟩ := commands_fail_together hLetter western codecs .redirected
  have hRead : (output western ["ast", "--json-mode", "b"]).exitCode = 0 :=
    (hText hKeeps _ _ _ .latin1 (hAst "b" (Or.inr rfl)) hWestern (by decide)).1.mpr
      ⟨_, _, (Text.Encoding.decode_eq_ok_iff _).mp rfl, Text.normalizeNewlines_eq_iff.mp rfl,
        by decide +kernel⟩
  obtain ⟨-, hSame, -⟩ := commands_fail_together hLetter further codecs .redirected
  have hFurther : output further ["tokens", "b"] =
      { exitCode := 0, out := "Token(COMMENT, 'é', 1:1)\n", err := "" } := by
    decide +kernel
  have hFurtherCode : (output further ["tokens", "b"]).exitCode = 0 :=
    congrArg (·.exitCode) hFurther
  exact ⟨hKeeps, hUnclosed, hLetter, hCode, hCodes.symm.trans hCode, hOut, hErr.symm.trans hReport,
    by decide +kernel, by decide +kernel, hRead, hFurther,
    (hSame _ _ _ _ (hTokens "b" (Or.inr rfl)) (hAst "b" (Or.inr rfl))).1.symm.trans hFurtherCode⟩

end CommandLine

end FlatSyntax
