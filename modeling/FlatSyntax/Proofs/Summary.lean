import FlatSyntax.Completion
import FlatSyntax.Outline
import FlatSyntax.Proofs.Text.Lines

/-! Documentation summed up in a line. Completion and outlines each take a line of their own from
the documentation of a symbol; both show one or none of them does, and they show the same but for
white space at the end. -/
namespace FlatSyntax

namespace CompletionItem

/-- What a detail says of any symbol, whatever its documentation. -/
def heading (symbol : Symbol) : String :=
  symbol.kind.word ++ " (line " ++ toString symbol.position.line ++ ")"

theorem detailOf_eq (symbol : Symbol) :
    let first := Text.firstTrimmedLine symbol.doc.toList
    detailOf symbol = heading symbol ++ if first.isEmpty then "" else ": " ++ String.ofList first :=
  rfl

/-- The text behind a heading is the first line of the trimmed documentation, if that has any. -/
theorem detailOf_eq_append_iff {symbol : Symbol} {text : String} :
    detailOf symbol = heading symbol ++ ": " ++ text ↔
      text.toList = Text.firstTrimmedLine symbol.doc.toList ∧
        Text.firstTrimmedLine symbol.doc.toList ≠ [] := by
  rw [detailOf_eq, String.append_assoc, String.append_right_inj]
  cases Text.firstTrimmedLine symbol.doc.toList with
  | nil =>
      have hSuffix : "" ≠ ": " ++ text := fun hEmpty =>
        absurd (String.append_eq_empty_iff.mp hEmpty.symm).1 (by decide)
      simp [hSuffix]
  | cons c rest =>
      rw [List.isEmpty_cons, if_neg Bool.false_ne_true, String.append_right_inj]
      constructor
      · rintro rfl
        exact ⟨String.toList_ofList, List.cons_ne_nil c rest⟩
      · rintro ⟨hText, -⟩
        rw [← hText, String.ofList_toList]

theorem detailOf_eq_heading {symbol : Symbol}
    (hNone : Text.firstTrimmedLine symbol.doc.toList = []) : detailOf symbol = heading symbol := by
  rw [detailOf_eq, hNone]
  exact String.append_empty

end CompletionItem

theorem OutlineEntry.summary_eq_empty_iff {symbol : Symbol} :
    (ofSymbol symbol).summary = "" ↔ Text.firstTrimmedLine symbol.doc.toList = [] := by
  rw [← Text.firstFullLine_eq_nil_iff, ← String.toList_eq_nil_iff, ofSymbol, String.toList_ofList]

/-- A detail goes on behind its heading exactly where the outline has a summary, namely with the
first line of the trimmed documentation, which there always is. Without the white space at its end
that line is the summary, and neither has a line break in it. -/
theorem summaries_agree (symbol : Symbol) :
    let detail := (CompletionItem.ofSymbol symbol).detail
    let heading := CompletionItem.heading symbol
    let summary := (OutlineEntry.ofSymbol symbol).summary
    let trimmed := Text.trim symbol.doc.toList
    ((∃ text, detail = heading ++ ": " ++ text) ↔ summary ≠ "") ∧
      (summary = "" → detail = heading) ∧
      (∀ text, detail = heading ++ ": " ++ text →
        (Text.lines trimmed).head? = some text.toList ∧
          String.ofList (Text.trimEnd text.toList) = summary ∧
          ∀ c ∈ text.toList, Text.isLineBreak c = false) ∧
      (∀ c ∈ summary.toList, Text.isLineBreak c = false) ∧
      (trimmed ≠ [] → Text.lines trimmed ≠ []) := by
  intro detail heading summary trimmed
  have hSuffix {text : String} : detail = heading ++ ": " ++ text ↔
      text.toList = Text.firstTrimmedLine symbol.doc.toList ∧
        Text.firstTrimmedLine symbol.doc.toList ≠ [] :=
    CompletionItem.detailOf_eq_append_iff
  have hSummary : summary = "" ↔ Text.firstTrimmedLine symbol.doc.toList = [] :=
    OutlineEntry.summary_eq_empty_iff
  refine ⟨?_, fun hNone => ?_, fun text hText => ?_, fun c hMem => ?_, ?_⟩
  · rw [Ne, hSummary]
    constructor
    · rintro ⟨text, hText⟩
      exact (hSuffix.mp hText).2
    · intro hLine
      exact ⟨_, hSuffix.mpr ⟨String.toList_ofList, hLine⟩⟩
  · exact CompletionItem.detailOf_eq_heading (hSummary.mp hNone)
  · obtain ⟨hFirst, hLine⟩ := hSuffix.mp hText
    rw [hFirst, Text.trimEnd_firstTrimmedLine]
    exact ⟨Text.head?_lines_trim hLine, rfl, fun c => Text.isLineBreak_of_mem_firstTrimmedLine⟩
  · simp only [summary, OutlineEntry.ofSymbol, String.toList_ofList] at hMem
    exact Text.isLineBreak_of_mem_firstFullLine hMem
  · exact mt Text.lines_eq_nil_iff.mp

/-- The first full line is set off by breaks of three kinds and ends in a space. -/
theorem summaries_agree_separated :
    let symbol : Symbol :=
      { kind := .function, name := "sum", position := ⟨4, 7⟩
        doc := "\r\n \u2028\tadd a \x0b and b \u2029more" }
    (CompletionItem.ofSymbol symbol).detail = CompletionItem.heading symbol ++ ": " ++ "add a " ∧
      String.ofList (Text.trimEnd "add a ".toList) = (OutlineEntry.ofSymbol symbol).summary ∧
      ∀ c ∈ "add a ".toList, Text.isLineBreak c = false := by
  intro symbol
  have hDetail : (CompletionItem.ofSymbol symbol).detail =
      CompletionItem.heading symbol ++ ": " ++ "add a " := by decide
  obtain ⟨-, -, hText, -⟩ := summaries_agree symbol
  exact ⟨hDetail, (hText "add a " hDetail).2⟩

end FlatSyntax
