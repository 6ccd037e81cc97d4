import FlatSyntax.Proofs.Text.Blank
import FlatSyntax.Text.Lines

/-! Line breaks: those of a file, which are all read as line feeds, and the line that sums a text
up. Whether a text is trimmed and then cut at its first break, or cut into lines of which the first
full one is trimmed, makes no difference but for white space at the end, because every line break is
white space. -/
namespace FlatSyntax.Text

theorem isBlank_of_isLineBreak {c : Char} (hBreak : isLineBreak c = true) : isBlank c = true := by
  have hWithin : ∀ range ∈ lineBreakRanges, ∃ wider ∈ blankRanges,
      wider.1 ≤ range.1 ∧ range.2 ≤ wider.2 := by decide
  obtain ⟨range, hRange, hFirst, hLast⟩ :=
    (CodeRanges.covers_iff lineBreakRanges_ordered c.toNat).mp hBreak
  obtain ⟨wider, hWider, hStart, hEnd⟩ := hWithin range hRange
  exact (CodeRanges.covers_iff blankRanges_ordered c.toNat).mpr
    ⟨wider, hWider, hStart.trans hFirst, hLast.trans hEnd⟩

variable {text rest : List Char} {c : Char}

/-- The same lines twice: in a text where each break is a line feed, a carriage return or a carriage
return with a line feed, and in one where each is a line feed. -/
inductive SameLines : (text source : List Char) → Prop
  | nil : SameLines [] []
  | pair {text source : List Char} (hMore : SameLines text source) :
      SameLines ('\r' :: '\n' :: text) ('\n' :: source)
  | single {text source : List Char} (hAlone : text.head? ≠ some '\n')
      (hMore : SameLines text source) : SameLines ('\r' :: text) ('\n' :: source)
  | other {c : Char} {text source : List Char} (hOther : c ≠ '\r')
      (hMore : SameLines text source) : SameLines (c :: text) (c :: source)

theorem normalizeNewlines_of_no_pair (hNoPair : c = '\r' → rest.head? ≠ some '\n') :
    normalizeNewlines (c :: rest) = (if c = '\r' then '\n' else c) :: normalizeNewlines rest := by
  refine normalizeNewlines.eq_3 c rest fun after hReturn hRest => hNoPair hReturn ?_
  rw [hRest]
  rfl

theorem normalizeNewlines_eq_iff {source : List Char} :
    normalizeNewlines text = source ↔ SameLines text source := by
  constructor
  · rintro rfl
    fun_induction normalizeNewlines text with
    | case1 => exact .nil
    | case2 rest ih => exact .pair ih
    | case3 c rest hNoPair ih =>
        by_cases hReturn : c = '\r'
        · rw [if_pos hReturn, hReturn]
          refine .single (fun hHead => ?_) ih
          obtain ⟨after, hRest⟩ := List.head?_eq_some_iff.mp hHead
          exact hNoPair after hReturn hRest
        · rw [if_neg hReturn]
          exact .other hReturn ih
  · intro hSame
    induction hSame with
    | nil => rfl
    | pair hMore ih => rw [normalizeNewlines, ih]
    | single hAlone hMore ih => rw [normalizeNewlines_of_no_pair fun _ => hAlone, if_pos rfl, ih]
    | other hOther hMore ih =>
        rw [normalizeNewlines_of_no_pair fun hReturn => absurd hReturn hOther, if_neg hOther, ih]

/-- The part of a text before its first line break. -/
def beforeBreak (text : List Char) : List Char :=
  text.takeWhile (!isLineBreak ·)

theorem isLineBreak_of_mem_beforeBreak (hMem : c ∈ beforeBreak text) : isLineBreak c = false := by
  simpa using List.mem_takeWhile_imp hMem

theorem lines_of_not_isLineBreak (hOther : isLineBreak c = false) (rest : List Char) :
    lines (c :: rest) = consToFirstLine c (lines rest) := by
  have hReturn : c ≠ '\r' := by
    rintro rfl
    cases hOther
  rw [lines.eq_3 _ _ fun _ hHead => absurd hHead hReturn, hOther]
  rfl

theorem beforeBreak_of_not_isLineBreak (hOther : isLineBreak c = false) (rest : List Char) :
    beforeBreak (c :: rest) = c :: beforeBreak rest :=
  List.takeWhile_cons_of_pos (by simpa using hOther)

/-- The first line of a text is what stands before its first break. -/
theorem exists_lines_eq (hText : text ≠ []) : ∃ later, lines text = beforeBreak text :: later := by
  fun_induction lines text with
  | case1 => exact absurd rfl hText
  | case2 rest _ => exact ⟨lines rest, rfl⟩
  | case3 c rest _ hBreak _ => exact ⟨lines rest, by simp [beforeBreak, hBreak]⟩
  | case4 c rest _ hOther ih =>
      rw [beforeBreak_of_not_isLineBreak (eq_false_of_ne_true hOther)]
      cases rest with
      | nil => exact ⟨[], rfl⟩
      | cons d more =>
          obtain ⟨later, hLines⟩ := ih (List.cons_ne_nil d more)
          exact ⟨later, by rw [hLines]; rfl⟩

theorem lines_eq_nil_iff : lines text = [] ↔ text = [] := by
  constructor
  · intro hLines
    by_contra hText
    obtain ⟨later, hFirst⟩ := exists_lines_eq hText
    rw [hLines] at hFirst
    cases hFirst
  · rintro rfl
    rfl

theorem firstFullLine_of_empty_line {after : List Char} (hLines : lines text = [] :: lines after) :
    firstFullLine text = firstFullLine after := by
  rw [firstFullLine, hLines, List.map_cons, List.find?_cons_of_neg (by decide)]
  rfl

theorem firstFullLine_of_isLineBreak (hBreak : isLineBreak c = true) (rest : List Char) :
    firstFullLine (c :: rest) = firstFullLine rest := by
  by_cases hPair : c = '\r' ∧ rest.head? = some '\n'
  · -- both characters are one break, and the second is one by itself
    obtain ⟨rfl, hHead⟩ := hPair
    obtain ⟨after, rfl⟩ := List.head?_eq_some_iff.mp hHead
    have hFeed : lines ('\n' :: after) = [] :: lines after := rfl
    rw [firstFullLine_of_empty_line (lines.eq_2 after), firstFullLine_of_empty_line hFeed]
  · refine firstFullLine_of_empty_line ?_
    have hNoPair : ∀ after, c = '\r' → rest = '\n' :: after → False := by
      rintro after hReturn rfl
      exact hPair ⟨hReturn, rfl⟩
    rw [lines.eq_3 _ _ hNoPair, if_pos hBreak]

theorem firstFullLine_of_isBlank (hBlank : isBlank c = true) (rest : List Char) :
    firstFullLine (c :: rest) = firstFullLine rest := by
  cases hBreak : isLineBreak c with
  | true => exact firstFullLine_of_isLineBreak hBreak rest
  | false =>
      have hTrim (line : List Char) : trim (c :: line) = trim line := by
        rw [trim, trimStart_of_isBlank hBlank, trim]
      rw [firstFullLine, lines_of_not_isLineBreak hBreak, firstFullLine]
      cases lines rest with
      | nil =>
          rw [consToFirstLine, List.map_cons, hTrim]
          rfl
      | cons line more => rw [consToFirstLine, List.map_cons, List.map_cons, hTrim]

theorem firstFullLine_of_not_isBlank (hBlank : isBlank c = false) (rest : List Char) :
    firstFullLine (c :: rest) = trimEnd (beforeBreak (c :: rest)) := by
  have hOther : isLineBreak c = false := by
    cases hBreak : isLineBreak c with
    | false => rfl
    | true => rw [isBlank_of_isLineBreak hBreak] at hBlank; exact hBlank
  have hLine := beforeBreak_of_not_isLineBreak hOther rest
  obtain ⟨later, hLines⟩ := exists_lines_eq (List.cons_ne_nil c rest)
  have hTrim : trim (c :: beforeBreak rest) = trimEnd (c :: beforeBreak rest) := by
    rw [trim, trimStart_of_not_isBlank hBlank]
  rw [firstFullLine, hLines, hLine, List.map_cons, hTrim, List.find?_cons_of_pos]
  · rfl
  · simpa using trimEnd_cons_ne_nil hBlank

theorem firstFullLine_eq_trimEnd (text : List Char) :
    firstFullLine text = trimEnd (beforeBreak (trimStart text)) := by
  induction text with
  | nil => rfl
  | cons c rest ih =>
      cases hBlank : isBlank c with
      | true => rw [firstFullLine_of_isBlank hBlank, ih, trimStart_of_isBlank hBlank]
      | false => rw [firstFullLine_of_not_isBlank hBlank, trimStart_of_not_isBlank hBlank]

theorem firstTrimmedLine_eq (text : List Char) :
    firstTrimmedLine text = beforeBreak (trim text) := by
  by_cases hNil : trim text = []
  · rw [firstTrimmedLine, hNil]
    rfl
  · obtain ⟨later, hLines⟩ := exists_lines_eq hNil
    rw [firstTrimmedLine, hLines]
    rfl

/-- White space at the end of a text reaches into what stands before its first break only where that
is the end of the text. -/
theorem trimEnd_beforeBreak_trimEnd (text : List Char) :
    trimEnd (beforeBreak (trimEnd text)) = trimEnd (beforeBreak text) := by
  obtain ⟨gap, hText, hGap⟩ := exists_eq_trimEnd_append text
  generalize trimEnd text = front at hText
  rw [hText, beforeBreak, beforeBreak, List.takeWhile_append]
  split
  · rename_i hWhole
    have hFront := (List.takeWhile_prefix (!isLineBreak ·)).eq_of_length hWhole
    rw [hFront, trimEnd_append_blank fun c hMem => hGap c ((List.takeWhile_prefix _).mem hMem)]
  · rfl

/-- Both ways to sum a text up agree but for white space at the end. -/
theorem trimEnd_firstTrimmedLine (text : List Char) :
    trimEnd (firstTrimmedLine text) = firstFullLine text := by
  rw [firstTrimmedLine_eq, trim, trimEnd_beforeBreak_trimEnd, firstFullLine_eq_trimEnd]

theorem head?_lines_trim (hLine : firstTrimmedLine text ≠ []) :
    (lines (trim text)).head? = some (firstTrimmedLine text) := by
  unfold firstTrimmedLine at hLine ⊢
  cases hLines : lines (trim text) with
  | nil => simp [hLines] at hLine
  | cons first later => rfl

theorem isLineBreak_of_mem_firstTrimmedLine (hMem : c ∈ firstTrimmedLine text) :
    isLineBreak c = false := by
  rw [firstTrimmedLine_eq] at hMem
  exact isLineBreak_of_mem_beforeBreak hMem

theorem isLineBreak_of_mem_firstFullLine (hMem : c ∈ firstFullLine text) :
    isLineBreak c = false := by
  rw [← trimEnd_firstTrimmedLine] at hMem
  exact isLineBreak_of_mem_firstTrimmedLine ((trimEnd_prefix_self _).mem hMem)

/-- One summary is empty exactly where the other is: the first line of a trimmed text starts with a
character that is no white space, so it is not trimmed away. -/
theorem firstFullLine_eq_nil_iff : firstFullLine text = [] ↔ firstTrimmedLine text = [] := by
  rw [← trimEnd_firstTrimmedLine]
  constructor
  · intro hNil
    have hPrefix : firstTrimmedLine text <+: trimStart text := by
      rw [firstTrimmedLine_eq]
      exact (List.takeWhile_prefix _).trans (trimEnd_prefix_self _)
    obtain ⟨after, hStart⟩ := hPrefix
    cases hLine : firstTrimmedLine text with
    | nil => rfl
    | cons c rest =>
        have hHead := List.head?_dropWhile_not isBlank text
        rw [← trimStart, ← hStart, hLine] at hHead
        rw [hLine] at hNil
        exact absurd hNil (trimEnd_cons_ne_nil hHead)
  · intro hNil
    rw [hNil]
    rfl

end FlatSyntax.Text
