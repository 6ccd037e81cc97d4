import FlatSyntax.Text.Terminal

/-! What is left of a styled text when terminal sequences are removed. A part of a text is cleared
to another where it is replaced by that whatever follows it, so parts may be cleared one by one. -/
namespace FlatSyntax.Text.Terminal

/-- Removing sequences turns `styled` into `plain` and then goes on behind it. -/
def Clears (styled plain : List Char) : Prop :=
  ∀ rest, strip (styled ++ rest) = plain ++ strip rest

theorem strip_cons {c : Char} (hPlain : c ≠ escape) (rest : List Char) :
    strip (c :: rest) = c :: strip rest := by
  have hNone : afterSequence (c :: rest) = none := by
    unfold afterSequence
    split
    · rename_i hText
      rw [(List.cons.inj hText).1] at hPlain
      exact if_neg hPlain
    · rfl
  rw [strip]
  split
  · simp_all
  · rfl

/-- A text without the escape character is left as it is. -/
theorem clears_of_notMem {plain : List Char} (hPlain : escape ∉ plain) : Clears plain plain := by
  intro rest
  induction plain with
  | nil => rfl
  | cons c more ih =>
      rw [List.mem_cons, not_or] at hPlain
      rw [List.cons_append, strip_cons (Ne.symm hPlain.1), ih hPlain.2]
      rfl

theorem strip_sequence {text rest : List Char} (hSequence : afterSequence text = some rest) :
    strip text = strip rest := by
  cases text with
  | nil => cases hSequence
  | cons c more =>
      rw [strip]
      split <;> simp_all

theorem afterParameters_sublist {text rest : List Char}
    (hRest : afterParameters text = some rest) : rest.Sublist text := by
  fun_induction afterParameters text with
  | case1 => cases hRest
  | case2 c more hParameter ih => exact (ih hRest).cons c
  | case3 c =>
      cases hRest
      exact List.sublist_cons_self c _
  | case4 => cases hRest

theorem afterSequence_sublist {text rest : List Char}
    (hRest : afterSequence text = some rest) : rest.Sublist text := by
  unfold afterSequence at hRest
  split at hRest
  · split at hRest
    · exact ((afterParameters_sublist hRest).cons _).cons _
    · cases hRest
  · cases hRest

/-- Nothing is put in where a sequence is removed. -/
theorem strip_sublist (text : List Char) : (strip text).Sublist text := by
  fun_induction strip text with
  | case1 => exact .slnil
  | case2 c more after hSequence ih => exact ih.trans (afterSequence_sublist hSequence)
  | case3 c more hNone ih => exact ih.cons_cons c

namespace Clears

variable {styled styled' plain plain' : List Char}

theorem append (hFirst : Clears styled plain) (hSecond : Clears styled' plain') :
    Clears (styled ++ styled') (plain ++ plain') := by
  intro rest
  rw [List.append_assoc, hFirst, hSecond, List.append_assoc]

theorem strip_eq (hClears : Clears styled plain) : strip styled = plain := by
  have hWhole := hClears []
  rw [List.append_nil, strip, List.append_nil] at hWhole
  exact hWhole

/-- Parts with the same text between them are cleared each by itself. -/
theorem intercalate {Part : Type} {style plainly : Part → List Char} {between : List Char}
    (hBetween : escape ∉ between) {parts : List Part}
    (hParts : ∀ part ∈ parts, Clears (style part) (plainly part)) :
    Clears (between.intercalate (parts.map style)) (between.intercalate (parts.map plainly)) := by
  induction parts with
  | nil => exact fun _ => rfl
  | cons first more ih =>
      obtain ⟨hFirst, hMore⟩ := List.forall_mem_cons.mp hParts
      cases more with
      | nil => simpa using hFirst
      | cons second more =>
          rw [List.map_cons, List.map_cons, List.map_cons, List.map_cons,
            List.intercalate_cons_cons, List.intercalate_cons_cons]
          exact (hFirst.append (clears_of_notMem hBetween)).append (ih hMore)

end Clears

theorem toList_cyan (text : String) :
    (cyan text).toList =
      [escape, '[', '3', '6', 'm'] ++ text.toList ++ [escape, '[', '0', 'm'] := by
  simp [cyan]

/-- Coloring is undone. -/
theorem clears_cyan {text : String} (hText : escape ∉ text.toList) :
    Clears (cyan text).toList text.toList := by
  have hStart : Clears [escape, '[', '3', '6', 'm'] [] := fun rest => strip_sequence rfl
  have hReset : Clears [escape, '[', '0', 'm'] [] := fun rest => strip_sequence rfl
  rw [toList_cyan]
  simpa using (hStart.append (clears_of_notMem hText)).append hReset

end FlatSyntax.Text.Terminal
