import FlatSyntax.Lexeme.Comment

/-! The end of a block comment, said without the search for it: the text inside is the one text
without a closing marker that a closing marker follows. -/
namespace FlatSyntax

namespace Text

theorem sourceLine_cons {c : Char} (hOther : c ≠ '\n') (text : List Char) :
    sourceLine (c :: text) = c :: sourceLine text := by
  simp [sourceLine, hOther]

/-- Characters other than line feeds are part of the line that goes on after them. -/
theorem sourceLine_append_of_notMem {before : List Char} (hBefore : '\n' ∉ before)
    (rest : List Char) : sourceLine (before ++ rest) = before ++ sourceLine rest := by
  induction before with
  | nil => rfl
  | cons c before ih =>
      rw [List.mem_cons, not_or] at hBefore
      rw [List.cons_append, sourceLine_cons (Ne.symm hBefore.1), ih hBefore.2, List.cons_append]

/-- A run of characters is taken as a whole, up to a text that does not continue it. -/
theorem takeWhile_run {p : Char → Bool} {run after : List Char} (hRun : ∀ c ∈ run, p c = true)
    (hAfter : ∀ c ∈ after.head?, p c = false) :
    (run ++ after).takeWhile p = run ∧ (run ++ after).dropWhile p = after := by
  rw [List.takeWhile_append_of_pos hRun, List.dropWhile_append_of_pos hRun]
  cases after with
  | nil => simp
  | cons c rest => simp [hAfter c rfl]

/-- A line without a line feed in it ends where the text does or at the first line feed. -/
theorem sourceLine_append {line : List Char} (hLine : '\n' ∉ line) {after : List Char}
    (hAfter : ∀ c ∈ after.head?, c = '\n') :
    sourceLine (line ++ after) = line ∧ afterSourceLine (line ++ after) = after := by
  apply takeWhile_run
  · intro c hMem
    simp only [bne_iff_ne, ne_eq]
    rintro rfl
    exact hLine hMem
  · intro c hHead
    simp [hAfter c hHead]

theorem lineFeed_notMem_sourceLine (text : List Char) : '\n' ∉ sourceLine text := by
  intro hMem
  have hAll := List.all_eq_true.mp (List.all_takeWhile (p := (· != '\n')) (l := text)) _ hMem
  simp at hAll

/-- What remains after a run of characters does not continue the run. -/
theorem head?_dropWhile {p : Char → Bool} {text : List Char} {c : Char}
    (hHead : c ∈ (text.dropWhile p).head?) : p c = false := by
  have hNot := List.head?_dropWhile_not p text
  rw [Option.mem_def.mp hHead] at hNot
  exact hNot

theorem head?_afterSourceLine {text : List Char} {c : Char}
    (hHead : c ∈ (afterSourceLine text).head?) : c = '\n' := by
  simpa using head?_dropWhile hHead

end Text

namespace Comment

/-- The marker that ends a block comment. -/
def closing : List Char := ['*', '/']

theorem not_closing_infix_tail {c : Char} {inner : List Char} (hInner : ¬ closing <:+: c :: inner) :
    ¬ closing <:+: inner :=
  fun hTail => hInner (List.infix_cons_iff.mpr (Or.inr hTail))

/-- A split stops at the first closing marker: none lies inside. -/
theorem not_closing_infix_of_splitBlock {text inner after : List Char}
    (hSplit : splitBlock text = some (inner, after)) : ¬ closing <:+: inner := by
  fun_induction splitBlock text generalizing inner with
  | case1 => simp at hSplit
  | case2 rest =>
      simp only [Option.some.injEq, Prod.mk.injEq] at hSplit
      simp [← hSplit.1, closing]
  | case3 c rest hMarker ih =>
      obtain ⟨⟨inner', after'⟩, hRest, hPair⟩ := Option.map_eq_some_iff.mp hSplit
      simp only [Prod.mk.injEq] at hPair
      obtain ⟨rfl, rfl⟩ := hPair
      intro hInfix
      rcases List.infix_cons_iff.mp hInfix with hHead | hTail
      · rw [closing, List.cons_prefix_cons] at hHead
        obtain ⟨rfl, more, hMore⟩ := hHead
        refine hMarker (more ++ '*' :: '/' :: after') rfl ?_
        rw [eq_append_of_splitBlock hRest, ← hMore]
        rfl
      · exact ih hRest hTail

/-- A text without a closing marker, followed by one, is split there. -/
theorem splitBlock_append {inner : List Char} (hInner : ¬ closing <:+: inner) (after : List Char) :
    splitBlock (inner ++ '*' :: '/' :: after) = some (inner, after) := by
  induction inner with
  | nil => rfl
  | cons c inner ih =>
      have hMarker : ∀ rest, c = '*' → inner ++ '*' :: '/' :: after = '/' :: rest → False := by
        rintro rest rfl hRest
        cases inner with
        | nil => simp at hRest
        | cons d inner =>
            obtain rfl : d = '/' := (List.cons.inj hRest).1
            exact hInner ⟨[], inner, rfl⟩
      rw [List.cons_append, splitBlock.eq_3 _ _ hMarker, ih (not_closing_infix_tail hInner)]
      rfl

/-- Only a text without a closing marker is not split. -/
theorem splitBlock_eq_none_iff {text : List Char} :
    splitBlock text = none ↔ ¬ closing <:+: text := by
  constructor
  · rintro hNone ⟨before, after, rfl⟩
    induction before with
    | nil => simp [closing, splitBlock] at hNone
    | cons c before ih =>
        apply ih
        unfold splitBlock at hNone
        split at hNone
        · contradiction
        · cases hNone
        · rename_i c' rest _ hText
          have hTail : before ++ closing ++ after = rest := (List.cons.inj hText).2
          rw [hTail]
          exact Option.map_eq_none_iff.mp hNone
  · intro hText
    cases hSplit : splitBlock text with
    | none => rfl
    | some parts =>
        exfalso
        apply hText
        rw [eq_append_of_splitBlock hSplit]
        exact ⟨parts.1, parts.2, by simp [closing]⟩

end Comment

end FlatSyntax
