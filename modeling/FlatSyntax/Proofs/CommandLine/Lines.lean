import FlatSyntax.CommandLine.Run
import FlatSyntax.Proofs.Completion
import FlatSyntax.Proofs.Node.Listing
import FlatSyntax.Proofs.Outline
import FlatSyntax.Proofs.Parser.Anchoring
import FlatSyntax.Proofs.Scanner.GenericArguments
import FlatSyntax.Proofs.Text.Lines

/-! Listings with one line for each item. What an author writes over several lines reaches a listing
as a token, a name or a line of documentation; none of these has a line feed in it, so a listing has
a line for every token, entry, item or symbol and no other line. -/
namespace FlatSyntax

namespace Text

/-- A text that can be shown in one line. -/
def IsLine (text : String) : Prop := '\n' ∉ text.toList

instance (text : String) : Decidable (IsLine text) :=
  inferInstanceAs (Decidable (¬ _ ∈ _))

variable {text text' : String}

theorem IsLine.append (hText : IsLine text) (hText' : IsLine text') : IsLine (text ++ text') := by
  rw [IsLine, String.toList_append, List.mem_append, not_or]
  exact ⟨hText, hText'⟩

theorem isLine_ofList {chars : List Char} (hChars : '\n' ∉ chars) :
    IsLine (String.ofList chars) := by
  rwa [IsLine, String.toList_ofList]

theorem isLine_replicate (count : Nat) {c : Char} (hC : c ≠ '\n') :
    IsLine (String.ofList (List.replicate count c)) :=
  isLine_ofList fun hMem => hC (List.eq_of_mem_replicate hMem).symm

theorem IsLine.padRight (hText : IsLine text) (width : Nat) : IsLine (padRight width text) :=
  hText.append (isLine_replicate _ (by decide))

theorem IsLine.padLeft (hText : IsLine text) (width : Nat) : IsLine (padLeft width text) :=
  (isLine_replicate _ (by decide)).append hText

theorem IsPrinted.isLine (hText : IsPrinted text) : IsLine text :=
  hText.notMem (by decide +kernel)

theorem isLine_numeral (number : Int) : IsLine (toString number) :=
  (isPrinted_numeral number).isLine

end Text

theorem Position.isLine_text (position : Position) : Text.IsLine position.text := by
  have hColon : Text.IsLine ":" := by decide
  exact ((Text.isLine_numeral _).append hColon).append (Text.isLine_numeral _)

theorem SymbolKind.isLine_word (kind : SymbolKind) : Text.IsLine kind.word := by
  cases kind <;> decide

namespace Symbol

/-- A name as words and generic arguments are written. -/
def HasPlainName (symbol : Symbol) : Prop :=
  ∀ c ∈ symbol.name.toList, GenericArguments.isPart c = true

variable {symbol : Symbol}

theorem HasPlainName.isLine (hName : symbol.HasPlainName) : Text.IsLine symbol.name := by
  intro hMem
  exact absurd (hName _ hMem) (by decide)

theorem isLine_text_ofSymbol (hName : Text.IsLine symbol.name) :
    Text.IsLine (OutlineEntry.ofSymbol symbol).text := by
  have hGap : Text.IsLine "  " := by decide
  have hSpace : Text.IsLine " " := by decide
  have hDash : Text.IsLine "  - " := by decide
  have hSummary : Text.IsLine (OutlineEntry.ofSymbol symbol).summary :=
    Text.isLine_ofList fun hMem => absurd (Text.isLineBreak_of_mem_firstFullLine hMem) (by decide)
  have hPlace := symbol.position.isLine_text.append hGap
  have hKind := hPlace.append (symbol.kind.isLine_word.padRight 9)
  have hEntry := (hKind.append hSpace).append hName
  rw [OutlineEntry.text]
  refine hEntry.append ?_
  split
  · decide
  · exact hDash.append hSummary

theorem isLine_detailOf (symbol : Symbol) : Text.IsLine (CompletionItem.detailOf symbol) := by
  have hLine : Text.IsLine " (line " := by decide
  have hClosing : Text.IsLine ")" := by decide
  have hColon : Text.IsLine ": " := by decide
  have hFirst : Text.IsLine (String.ofList (Text.firstTrimmedLine symbol.doc.toList)) :=
    Text.isLine_ofList fun hMem =>
      absurd (Text.isLineBreak_of_mem_firstTrimmedLine hMem) (by decide)
  have hNumber := (symbol.kind.isLine_word.append hLine).append
    (Text.isLine_numeral symbol.position.line)
  rw [CompletionItem.detailOf]
  refine (hNumber.append hClosing).append ?_
  split
  · decide
  · exact hColon.append hFirst

end Symbol

namespace Analysis

variable {source file : String} {jsonMode : Bool} {analysis : Analysis}

/-- Words and generic arguments are written with few characters. -/
theorem isPart_of_mem_value {line : Int} {token : Token}
    (hToken : token ∈ (scanSource source file line).tokens)
    (hKind : token.kind = .identifier ∨ token.kind = .angle) {c : Char}
    (hMem : c ∈ token.value.toList) : GenericArguments.isPart c = true := by
  rcases hKind with hKind | hKind
  · obtain ⟨raw, hSpells⟩ := Cursor.spells_of_mem_scan hToken
    rw [hKind] at hSpells
    obtain ⟨hValue, hWord, -⟩ := hSpells
    rw [← hValue] at hMem
    exact GenericArguments.isPart_of_word (Word.isPart_of_mem hWord hMem)
  · rw [← token_placedTokens] at hToken
    obtain ⟨placed, hPlaced, rfl⟩ := List.mem_map.mp hToken
    exact (isArguments_of_angle hPlaced hKind).2.hParts c hMem

theorem hasPlainName (hAnalysis : ofSource source file jsonMode = .ok analysis) {symbol : Symbol}
    (hSymbol : symbol ∈ analysis.table.symbols) : symbol.HasPlainName := by
  obtain ⟨-, hSymbols⟩ := exists_walk hAnalysis
  rw [hSymbols] at hSymbol
  let rules : RuleSet := { jsonMode }
  have hPinned : rules.pinned = [] := rfl
  obtain ⟨-, hNamed⟩ := RuleSet.symbols_walk hPinned none 0 (scanSource source file 1).tokens
  obtain ⟨previous, token, hInfix, hNames, hName, -⟩ := hNamed symbol hSymbol
  have hToken : token ∈ (scanSource source file 1).tokens :=
    hInfix.subset (List.mem_cons_of_mem _ List.mem_cons_self)
  have hKind : token.kind = .identifier ∨ token.kind = .angle := by
    cases hNames with
    | word hKind => exact Or.inl hKind
    | arguments hKind => exact Or.inr hKind
  intro c hMem
  rw [hName] at hMem
  exact isPart_of_mem_value hToken hKind hMem

theorem isLine_of_mem_outline (hAnalysis : ofSource source file jsonMode = .ok analysis)
    {entry : OutlineEntry} (hEntry : entry ∈ outline analysis.table.symbols) :
    Text.IsLine entry.text := by
  obtain ⟨symbol, hSymbol, rfl⟩ :=
    List.mem_map.mp ((outline_perm analysis.table.symbols).mem_iff.mp hEntry)
  exact Symbol.isLine_text_ofSymbol (hasPlainName hAnalysis hSymbol).isLine

theorem isLine_of_mem_complete (hAnalysis : ofSource source file jsonMode = .ok analysis)
    {typed : String} {item : CompletionItem}
    (hItem : item ∈ complete analysis.table.symbols typed) :
    Text.IsLine item.label ∧ Text.IsLine item.detail := by
  obtain ⟨symbol, hFirst, -, rfl⟩ := mem_complete_iff.mp hItem
  exact ⟨(hasPlainName hAnalysis (List.mem_of_find?_eq_some hFirst)).isLine,
    symbol.isLine_detailOf⟩

end Analysis

namespace CommandLine

namespace Screen

/-- A text has one line for each of the messages, as they are shown, and no other line. -/
def ShowsEach (screen : Screen) (messages : List String) (out : String) : Prop :=
  out.toList.splitOn '\n' = messages.map (fun message => (screen.shown message).toList) ++ [[]]

variable {screen : Screen} {messages : List String}

theorem isLine_shown {message : String} (hMessage : Text.IsLine message) :
    Text.IsLine (screen.shown message) := by
  cases screen with
  | terminal => exact hMessage
  | redirected =>
      exact Text.isLine_ofList fun hMem => hMessage ((Text.Terminal.strip_sublist _).subset hMem)

theorem toList_display_cons (message : String) (more : List String) :
    (screen.display (message :: more)).toList =
      (screen.shown message).toList ++ '\n' :: (screen.display more).toList := by
  simp [display, String.toList_join]

theorem showsEach_display (hMessages : ∀ message ∈ messages, Text.IsLine message) :
    screen.ShowsEach messages (screen.display messages) := by
  induction messages with
  | nil => rfl
  | cons message more ih =>
      obtain ⟨hMessage, hMore⟩ := List.forall_mem_cons.mp hMessages
      rw [ShowsEach, toList_display_cons,
        List.splitOn_append_cons_self_of_not_mem (isLine_shown hMessage), ih hMore]
      rfl

end Screen

theorem isLine_rule (width : Nat) : Text.IsLine (rule width) :=
  Text.isLine_replicate width (by decide)

theorem isLine_symbolRow {kind name position : String} (hKind : Text.IsLine kind)
    (hName : Text.IsLine name) (hPosition : Text.IsLine position) :
    Text.IsLine (symbolRow kind name position) := by
  have hSpace : Text.IsLine " " := by decide
  have hFront := ((hKind.padRight 10).append hSpace).append (hName.padRight 20)
  exact (hFront.append hSpace).append (hPosition.padLeft 8)

/-- The row of a symbol in the listing without details. -/
def rowOf (symbol : Symbol) : String :=
  symbolRow symbol.kind.word symbol.name symbol.position.text

theorem tableLines_plain (table : SymbolTable) :
    tableLines false table =
      symbolRow "Kind" "Name" "Position" :: rule 40 :: table.symbols.map rowOf := by
  have hRows : table.symbols.flatMap (symbolLines false) = table.symbols.map rowOf :=
    List.map_eq_flatMap.symm
  rw [tableLines, hRows, if_neg Bool.false_ne_true, List.append_nil]

theorem outlineLines_of_ne_nil {table : SymbolTable} (hSymbols : table.symbols ≠ []) :
    outlineLines table = (outline table.symbols).map (·.text) := by
  have hLength := (outline_perm table.symbols).length_eq
  rw [outlineLines]
  split
  case h_1 hNone =>
    rw [hNone, List.length_map] at hLength
    exact absurd (List.length_eq_zero_iff.mp hLength.symm) hSymbols
  case h_2 => rfl

theorem isLine_of_mem_tokenLines (verbose : Bool) (tokens : List Token) :
    ∀ line ∈ tokenLines verbose tokens, Text.IsLine line := by
  intro line hLine
  rcases List.mem_append.mp hLine with hToken | hTotal
  · obtain ⟨token, -, rfl⟩ := List.mem_map.mp hToken
    exact token.isPrinted_render.isLine
  · split at hTotal
    · have hTotals : Text.IsLine "Total: " := by decide
      have hTokens : Text.IsLine " tokens" := by decide
      rw [List.mem_singleton.mp hTotal]
      exact (hTotals.append (Text.isLine_numeral tokens.length)).append hTokens
    · cases hTotal

theorem isLine_rowOf {symbol : Symbol} (hName : Text.IsLine symbol.name) :
    Text.IsLine (rowOf symbol) :=
  isLine_symbolRow symbol.kind.isLine_word hName symbol.position.isLine_text

/-- The program runs a command on the source text of a file. -/
structure RunsOn (arguments : List String) (files : FileSystem) (environment : Environment)
    (codecs : Codecs) (invocation : Invocation) (source file : String) (jsonMode : Bool) :
    Prop where
  hRequest : Request.ofArguments files arguments = .ok (.run invocation)
  hPath : FilePath.normalize invocation.path = file
  hMode : (invocation.options environment).1.jsonMode = jsonMode
  hSource :
    Analysis.readSource files file (invocation.options environment).1.encoding codecs = .ok source

/-- The lines that a command has to show of an analysis. -/
def Invocation.linesOf (invocation : Invocation) (color : Bool) (analysis : Analysis) :
    List String :=
  match invocation.command with
  | .tokens => tokenLines invocation.verbose analysis.tokens
  | .ast => nodeLines invocation color analysis
  | .symbols => tableLines invocation.verbose analysis.table
  | .outline => outlineLines analysis.table
  | .complete => completionLines invocation.verbose analysis.table invocation.typed

variable {arguments : List String} {files : FileSystem} {environment : Environment}
  {codecs : Codecs} {invocation : Invocation} {source file : String} {jsonMode : Bool}
  {analysis : Analysis}

namespace RunsOn

theorem ofFile_eq
    (hRuns : RunsOn arguments files environment codecs invocation source file jsonMode)
    (hAnalysis : Analysis.ofSource source file jsonMode = .ok analysis) :
    let options := (invocation.options environment).1
    Analysis.ofFile files invocation.path options.encoding options.jsonMode codecs =
      .ok analysis := by
  intro options
  simp only [Analysis.ofFile, hRuns.hPath, options, hRuns.hSource, hRuns.hMode, hAnalysis]
  rfl

theorem exists_findings
    (hRuns : RunsOn arguments files environment codecs invocation source file jsonMode)
    (hAnalysis : Analysis.ofSource source file jsonMode = .ok analysis) :
    let options := (invocation.options environment).1
    ∃ log, invocation.findings files options codecs =
      .ok { lines := invocation.linesOf options.color analysis, log } := by
  intro options
  cases hCommand : invocation.command with
  | tokens =>
      have hTokens := Analysis.tokensOf_of_ofSource hAnalysis
      refine ⟨[], ?_⟩
      simp only [Invocation.findings, hCommand, hRuns.hPath, options, hRuns.hSource, hTokens,
        Invocation.linesOf]
  | ast | symbols | outline | complete =>
      refine ⟨analysis.log, ?_⟩
      simp only [Invocation.findings, hCommand, options, hRuns.ofFile_eq hAnalysis,
        Invocation.linesOf]

theorem out_run
    (hRuns : RunsOn arguments files environment codecs invocation source file jsonMode)
    (hAnalysis : Analysis.ofSource source file jsonMode = .ok analysis) (screen : Screen) :
    let output := run arguments files environment screen codecs
    output.exitCode = 0 ∧
      output.out = screen.display
        (invocation.linesOf (invocation.options environment).1.color analysis) := by
  intro output
  obtain ⟨log, hFound⟩ := hRuns.exists_findings hAnalysis
  have hOutput : output = invocation.run files environment screen codecs := by
    simp only [output, run, hRuns.hRequest]
  rw [hOutput]
  simp only [Invocation.run, hFound, and_true]
  rfl

end RunsOn

/-- Whenever a source text is analyzed, its names are written with the characters of words and
generic arguments, and nothing that a listing shows of it goes over a line. A command that runs on
the text has a line for each token, entry, item or symbol and no other line, but for the heading of
the symbols and the total of the tokens. -/
theorem listings_have_a_line_for_each_item
    (hAnalysis : Analysis.ofSource source file jsonMode = .ok analysis) :
    let symbols := analysis.table.symbols
    (∀ symbol ∈ symbols, symbol.HasPlainName) ∧
      (∀ token ∈ analysis.tokens, Text.IsLine token.render) ∧
      (∀ entry ∈ outline symbols, Text.IsLine entry.text) ∧
      (∀ typed, ∀ item ∈ complete symbols typed,
        Text.IsLine item.label ∧ Text.IsLine item.detail) ∧
      ∀ arguments files environment codecs invocation screen,
        RunsOn arguments files environment codecs invocation source file jsonMode →
          let output := run arguments files environment screen codecs
          output.exitCode = 0 ∧
            (invocation.command = .tokens →
              screen.ShowsEach
                (analysis.tokens.map (·.render) ++
                  if invocation.verbose then
                    ["Total: " ++ toString analysis.tokens.length ++ " tokens"]
                  else [])
                output.out) ∧
            (invocation.command = .outline → symbols ≠ [] →
              screen.ShowsEach ((outline symbols).map (·.text)) output.out) ∧
            (invocation.command = .complete →
              screen.ShowsEach
                ((complete symbols invocation.typed).map fun item =>
                  if invocation.verbose then Text.padRight 20 item.label ++ " " ++ item.detail
                  else item.label)
                output.out) ∧
            (invocation.command = .symbols → invocation.verbose = false →
              screen.ShowsEach
                (symbolRow "Kind" "Name" "Position" :: rule 40 :: symbols.map rowOf)
                output.out) := by
  intro symbols
  have hNames : ∀ symbol ∈ symbols, symbol.HasPlainName := fun symbol hSymbol =>
    Analysis.hasPlainName hAnalysis hSymbol
  have hEntries : ∀ entry ∈ outline symbols, Text.IsLine entry.text := fun entry hEntry =>
    Analysis.isLine_of_mem_outline hAnalysis hEntry
  have hItems : ∀ typed, ∀ item ∈ complete symbols typed,
      Text.IsLine item.label ∧ Text.IsLine item.detail := fun typed item hItem =>
    Analysis.isLine_of_mem_complete hAnalysis hItem
  refine ⟨hNames, fun token _ => token.isPrinted_render.isLine, hEntries, hItems, ?_⟩
  intro arguments files environment codecs invocation screen hRuns output
  obtain ⟨hCode, hOut⟩ := hRuns.out_run hAnalysis screen
  rw [hOut, Invocation.linesOf]
  refine ⟨hCode, fun hCommand => ?_, fun hCommand hSymbols => ?_, fun hCommand => ?_,
    fun hCommand hVerbose => ?_⟩ <;> rw [hCommand]
  · exact Screen.showsEach_display (isLine_of_mem_tokenLines _ _)
  · rw [outlineLines_of_ne_nil hSymbols]
    exact Screen.showsEach_display (List.forall_mem_map.mpr hEntries)
  · refine Screen.showsEach_display (List.forall_mem_map.mpr fun item hItem => ?_)
    obtain ⟨hLabel, hDetail⟩ := hItems _ item hItem
    have hSpace : Text.IsLine " " := by decide
    split
    · exact ((hLabel.padRight 20).append hSpace).append hDetail
    · exact hLabel
  · rw [hVerbose, tableLines_plain]
    have hHeading : Text.IsLine (symbolRow "Kind" "Name" "Position") :=
      isLine_symbolRow (by decide) (by decide) (by decide)
    refine Screen.showsEach_display (List.forall_mem_cons.mpr ⟨hHeading, ?_⟩)
    refine List.forall_mem_cons.mpr ⟨isLine_rule 40, List.forall_mem_map.mpr ?_⟩
    exact fun symbol hSymbol => isLine_rowOf (hNames symbol hSymbol).isLine

/-- A comment over two lines stays in one line for each of a token, an entry and an item. -/
theorem listings_have_a_line_for_each_item_comment :
    let source := "/*a\nb*/Vec<int> v"
    let bytes := [47, 42, 97, 10, 98, 42, 47, 86, 101, 99, 60, 105, 110, 116, 62, 32, 118]
    let files := (FileTree.add {} "a" (.file bytes)).fileSystem
    let Runs (arguments : List String) (invocation : Invocation) : Prop :=
      RunsOn arguments files {} noCodecs invocation source "a" false
    let Shows (arguments lines : List String) : Prop :=
      Screen.redirected.ShowsEach lines (run arguments files {} .redirected).out
    let tokens : List Token :=
      [⟨.comment, "a\nb", 1, 1⟩, ⟨.identifier, "Vec", 2, 4⟩, ⟨.angle, "int", 2, 7⟩,
        ⟨.identifier, "v", 2, 13⟩]
    let symbols : List Symbol := [⟨.binding, "int", ⟨2, 7⟩, "a\nb"⟩]
    ∃ analysis, Analysis.ofSource source "a" false = .ok analysis ∧
      analysis.tokens = tokens ∧ analysis.table.symbols = symbols ∧
      Runs ["tokens", "-v", "a"] { command := .tokens, path := "a", verbose := true } ∧
      Shows ["tokens", "-v", "a"]
        ["Token(COMMENT, 'a\\nb', 1:1)", "Token(IDENTIFIER, 'Vec', 2:4)",
          "Token(ANGLE, 'int', 2:7)", "Token(IDENTIFIER, 'v', 2:13)", "Total: 4 tokens"] ∧
      Runs ["outline", "a"] { command := .outline, path := "a" } ∧
      Shows ["outline", "a"] ["2:7  variable  int  - a"] ∧
      Runs ["complete", "-v", "a"] { command := .complete, path := "a", verbose := true } ∧
      Shows ["complete", "-v", "a"] ["int                  variable (line 2): a"] ∧
      Runs ["symbols", "a"] { command := .symbols, path := "a" } ∧
      Shows ["symbols", "a"]
        ["Kind       Name                 Position", "----------------------------------------",
          "variable   int                       2:7"] := by
  intro source bytes files Runs Shows tokens symbols
  have hSource : Analysis.readSource files "a" "utf-8" = .ok source := by decide +kernel
  have hRuns (arguments : List String) (invocation : Invocation)
      (hRequest : Request.ofArguments files arguments = .ok (.run invocation))
      (hPath : FilePath.normalize invocation.path = "a")
      (hMode : (invocation.options {}).1.jsonMode = false) : Runs arguments invocation :=
    ⟨hRequest, hPath, hMode, hSource⟩
  have hTokens := hRuns ["tokens", "-v", "a"] { command := .tokens, path := "a", verbose := true }
    (by decide +kernel) (by decide +kernel) rfl
  have hOutline := hRuns ["outline", "a"] { command := .outline, path := "a" }
    (by decide +kernel) (by decide +kernel) rfl
  have hComplete := hRuns ["complete", "-v", "a"]
    { command := .complete, path := "a", verbose := true } (by decide +kernel) (by decide +kernel)
    rfl
  have hTable := hRuns ["symbols", "a"] { command := .symbols, path := "a" }
    (by decide +kernel) (by decide +kernel) rfl
  have hFound : (Analysis.ofSource source "a" false).toOption.map
      (fun analysis => (analysis.tokens, analysis.table.symbols)) = some (tokens, symbols) := by
    decide +kernel
  cases hAnalysis : Analysis.ofSource source "a" false with
  | error diagnostic =>
      rw [hAnalysis] at hFound
      cases hFound
  | ok analysis =>
      rw [hAnalysis] at hFound
      obtain ⟨hOwnTokens, hSymbols⟩ := Prod.mk.inj (Option.some.inj hFound)
      obtain ⟨-, -, -, -, hLines⟩ := listings_have_a_line_for_each_item hAnalysis
      rw [hOwnTokens, hSymbols] at hLines
      obtain ⟨-, hShown, -⟩ := hLines _ _ _ _ _ .redirected hTokens
      obtain ⟨-, -, hEntries, -⟩ := hLines _ _ _ _ _ .redirected hOutline
      obtain ⟨-, -, -, hItems, -⟩ := hLines _ _ _ _ _ .redirected hComplete
      obtain ⟨-, -, -, -, hRows⟩ := hLines _ _ _ _ _ .redirected hTable
      refine ⟨analysis, rfl, hOwnTokens, hSymbols, hTokens, (hShown rfl).trans ?_, hOutline,
        (hEntries rfl (List.cons_ne_nil _ _)).trans ?_, hComplete, (hItems rfl).trans ?_, hTable,
        (hRows rfl rfl).trans ?_⟩ <;> decide +kernel

end CommandLine

end FlatSyntax
