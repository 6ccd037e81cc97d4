import FlatSyntax.Text.Blank
import Mathlib.Data.List.TakeWhile

/-! Trimming. A text loses the white space at its ends and nothing else, so it is trimmed already
where it neither starts nor ends in white space. -/
namespace FlatSyntax.Text

variable {text rest : List Char} {c : Char}

theorem trimStart_of_isBlank (hBlank : isBlank c = true) : trimStart (c :: rest) = trimStart rest :=
  List.dropWhile_cons_of_pos hBlank

theorem trimStart_of_not_isBlank (hBlank : isBlank c = false) :
    trimStart (c :: rest) = c :: rest :=
  List.dropWhile_cons_of_neg (by simp [hBlank])

theorem trimEnd_append_blank {gap : List Char} (hGap : ∀ c ∈ gap, isBlank c = true) :
    trimEnd (text ++ gap) = trimEnd text := by
  rw [trimEnd, List.reverse_append, List.dropWhile_append_of_pos, trimEnd]
  exact fun c hMem => hGap c (List.mem_reverse.mp hMem)

theorem exists_eq_trimEnd_append (text : List Char) :
    ∃ gap, text = trimEnd text ++ gap ∧ ∀ c ∈ gap, isBlank c = true := by
  refine ⟨(text.reverse.takeWhile isBlank).reverse, ?_, fun c hMem => ?_⟩
  · rw [trimEnd, ← List.reverse_append, List.takeWhile_append_dropWhile, List.reverse_reverse]
  · exact List.mem_takeWhile_imp (List.mem_reverse.mp hMem)

theorem trimEnd_prefix_self (text : List Char) : trimEnd text <+: text := by
  obtain ⟨gap, hText, -⟩ := exists_eq_trimEnd_append text
  exact ⟨gap, hText.symm⟩

theorem trimEnd_cons_ne_nil (hBlank : isBlank c = false) : trimEnd (c :: rest) ≠ [] := by
  intro hNil
  rw [trimEnd, List.reverse_eq_nil_iff, List.dropWhile_eq_nil_iff] at hNil
  have hHead := hNil c (by simp)
  rw [hBlank] at hHead
  cases hHead

theorem trimStart_eq_self_iff :
    trimStart text = text ↔ ∀ c ∈ text.head?, isBlank c = false := by
  cases text <;> simp [trimStart, List.dropWhile_eq_self_iff]

theorem trimEnd_eq_self_iff :
    trimEnd text = text ↔ ∀ c ∈ text.getLast?, isBlank c = false := by
  rw [trimEnd, List.reverse_eq_iff, ← List.head?_reverse]
  exact trimStart_eq_self_iff

/-- Trimming a text at one end or the other makes it shorter or leaves it as it is. -/
theorem trim_eq_self_iff :
    trim text = text ↔
      (∀ c ∈ text.head?, isBlank c = false) ∧ ∀ c ∈ text.getLast?, isBlank c = false := by
  rw [← trimStart_eq_self_iff, ← trimEnd_eq_self_iff]
  constructor
  · intro hTrim
    have hStart : trimStart text <:+ text := List.dropWhile_suffix _
    have hEnd : (trim text).length ≤ (trimStart text).length := by
      simpa only [trim, trimEnd, List.length_reverse] using
        (List.dropWhile_suffix (l := (trimStart text).reverse) isBlank).length_le
    rw [hTrim] at hEnd
    have hSame := hStart.eq_of_length_le hEnd
    exact ⟨hSame, by rw [trim, hSame] at hTrim; exact hTrim⟩
  · rintro ⟨hStart, hEnd⟩
    rw [trim, hStart, hEnd]

end FlatSyntax.Text
