import FlatSyntax.Proofs.Lexeme.SpellingUnique
import FlatSyntax.Proofs.Text.Blank
import Mathlib.Data.List.Induction

/-! Generic arguments told by counting. The depth that the reader keeps is the number of brackets
that a text has opened and not closed, so the closing bracket that it finds is the first one at
which as many brackets are closed as are open. The reader takes a text exactly where such a place
comes before any character that no type name holds. -/
namespace FlatSyntax

namespace GenericArguments

/-- A text closes `depth` brackets more than it opens, and never more than that on the way. -/
structure Closes (depth : Nat) (text : List Char) : Prop where
  hPrefix : ∀ front, front <+: text → front.count '>' ≤ front.count '<' + depth
  hWhole : text.count '>' = text.count '<' + depth

/-- The brackets of a text match each other. -/
def IsBalanced (text : List Char) : Prop := Closes 0 text

theorem closes_nil_iff {depth : Nat} : Closes depth [] ↔ depth = 0 := by
  constructor
  · intro hCloses
    exact (Nat.zero_add depth ▸ hCloses.hWhole).symm
  · rintro rfl
    exact ⟨fun front hFront => by rw [List.prefix_nil.mp hFront]; exact Nat.le_refl _, rfl⟩

/-- The first character of a text changes how many brackets the rest has to close. -/
theorem closes_cons_iff {depth depth' : Nat} {c : Char} {rest : List Char}
    (hDepth : [c].count '>' + depth' = [c].count '<' + depth) :
    Closes depth (c :: rest) ↔ Closes depth' rest := by
  have hCount (d : Char) (text : List Char) : (c :: text).count d = [c].count d + text.count d := by
    rw [← List.singleton_append, List.count_append]
  constructor
  · rintro ⟨hPrefix, hWhole⟩
    rw [hCount '>' rest, hCount '<' rest] at hWhole
    refine ⟨fun front hFront => ?_, by omega⟩
    have hLonger := hPrefix (c :: front) (List.cons_prefix_cons.mpr ⟨rfl, hFront⟩)
    rw [hCount '>' front, hCount '<' front] at hLonger
    omega
  · rintro ⟨hPrefix, hWhole⟩
    refine ⟨fun front hFront => ?_, by rw [hCount '>' rest, hCount '<' rest]; omega⟩
    rcases List.prefix_cons_iff.mp hFront with rfl | ⟨more, rfl, hMore⟩
    · exact Nat.zero_le _
    · have hShorter := hPrefix more hMore
      rw [hCount '>' more, hCount '<' more]
      omega

theorem closes_opener_iff {depth : Nat} {rest : List Char} :
    Closes depth ('<' :: rest) ↔ Closes (depth + 1) rest :=
  closes_cons_iff (by simp [Nat.add_comm])

theorem closes_closer_iff {depth : Nat} {rest : List Char} :
    Closes (depth + 1) ('>' :: rest) ↔ Closes depth rest :=
  closes_cons_iff (by simp [Nat.add_comm])

theorem not_closes_closer {rest : List Char} : ¬ Closes 0 ('>' :: rest) := by
  intro hCloses
  exact absurd (hCloses.hPrefix ['>'] (List.prefix_append _ rest)) (by decide)

theorem closes_other_iff {depth : Nat} {c : Char} {rest : List Char} (hOpener : c ≠ '<')
    (hCloser : c ≠ '>') : Closes depth (c :: rest) ↔ Closes depth rest :=
  closes_cons_iff (by simp [hOpener, hCloser])

theorem eq_cons_of_map_cons {c : Char} {split : Option (List Char × List Char)}
    {inner after : List Char}
    (hSplit : (split.map fun (inner, after) => (c :: inner, after)) = some (inner, after)) :
    ∃ rest, inner = c :: rest ∧ split = some (rest, after) := by
  obtain ⟨⟨rest, after'⟩, hRest, hPair⟩ := Option.map_eq_some_iff.mp hSplit
  cases hPair
  exact ⟨rest, rfl, hRest⟩

/-- The brackets of a text match each other exactly where they come out even and no part from the
start on closes just one too many: a count that moves by one cannot get further without that. -/
theorem isBalanced_iff {text : List Char} :
    IsBalanced text ↔
      (∀ front, front <+: text → front.count '>' ≠ front.count '<' + 1) ∧
        text.count '>' = text.count '<' := by
  constructor
  · intro hBalanced
    refine ⟨fun front hFront => ?_, hBalanced.hWhole⟩
    have hOpen := hBalanced.hPrefix front hFront
    omega
  · rintro ⟨hFirst, hWhole⟩
    refine ⟨fun front hFront => ?_, hWhole⟩
    induction front using List.reverseRecOn with
    | nil => exact Nat.zero_le _
    | append_singleton front c ih =>
        have hOpen := ih ((List.prefix_append front [c]).trans hFront)
        have hNext := hFirst _ hFront
        have hStep : [c].count '>' ≤ 1 := List.count_le_length
        rw [List.count_append, List.count_append] at hNext ⊢
        omega

/-- The reader splits a text at the bracket that closes one more than are open. -/
theorem splitClosing_eq_some_iff {depth : Nat} {text inner after : List Char} :
    splitClosing depth text = some (inner, after) ↔
      text = inner ++ '>' :: after ∧ (∀ c ∈ inner, isPart c = true) ∧ Closes depth inner := by
  have hAngles : isPart '<' = true ∧ isPart '>' = true := by decide
  constructor
  · intro hSplit
    refine ⟨eq_append_of_splitClosing hSplit, ?_⟩
    fun_induction splitClosing depth text generalizing inner with
    | case1 | case2 => cases hSplit
    | case3 depth rest _ ih =>
        obtain ⟨inner, rfl, hRest⟩ := eq_cons_of_map_cons hSplit
        obtain ⟨hParts, hCloses⟩ := ih hRest
        exact ⟨List.forall_mem_cons.mpr ⟨hAngles.1, hParts⟩, closes_opener_iff.mpr hCloses⟩
    | case4 =>
        cases hSplit
        exact ⟨List.forall_mem_nil _, closes_nil_iff.mpr rfl⟩
    | case5 rest _ _ depth ih =>
        obtain ⟨inner, rfl, hRest⟩ := eq_cons_of_map_cons hSplit
        obtain ⟨hParts, hCloses⟩ := ih hRest
        exact ⟨List.forall_mem_cons.mpr ⟨hAngles.2, hParts⟩, closes_closer_iff.mpr hCloses⟩
    | case6 depth c rest hPart hOpener hCloser ih =>
        obtain ⟨inner, rfl, hRest⟩ := eq_cons_of_map_cons hSplit
        obtain ⟨hParts, hCloses⟩ := ih hRest
        exact ⟨List.forall_mem_cons.mpr ⟨by simpa using hPart, hParts⟩,
          (closes_other_iff hOpener hCloser).mpr hCloses⟩
  · rintro ⟨rfl, hParts, hCloses⟩
    induction inner generalizing depth with
    | nil =>
        obtain rfl := closes_nil_iff.mp hCloses
        simp [splitClosing, hAngles]
    | cons c rest ih =>
        obtain ⟨hPart, hParts⟩ := List.forall_mem_cons.mp hParts
        by_cases hOpener : c = '<'
        · have hRest := ih hParts (closes_opener_iff.mp (hOpener ▸ hCloses))
          simp [splitClosing, hAngles, hOpener, hRest]
        by_cases hCloser : c = '>'
        · cases depth with
          | zero => exact absurd (hCloser ▸ hCloses) not_closes_closer
          | succ depth =>
              have hRest := ih hParts (closes_closer_iff.mp (hCloser ▸ hCloses))
              simp [splitClosing, hAngles, hCloser, hRest]
        · have hRest := ih hParts ((closes_other_iff hOpener hCloser).mp hCloses)
          simp [splitClosing, hPart, hOpener, hCloser, hRest]

theorem isPart_of_word {c : Char} (hPart : Word.isPart c = true) : isPart c = true := by
  rw [isPart, hPart, Bool.true_or]

theorem toNat_lt_of_isPart {c : Char} (hPart : isPart c = true) : c.toNat < 128 := by
  have hSigns : ∀ d ∈ " ,*:<>[]".toList, decide (d.toNat < 128) = true :=
    List.all_eq_true.mp (by decide)
  simp only [isPart, Word.isPart, Char.isAlphanum, Bool.or_eq_true, beq_iff_eq,
    List.contains_iff_mem] at hPart
  rcases hPart with ((hAlpha | hDigit) | rfl) | hSign
  · have hStart : Word.isStart c = true := by rw [Word.isStart, hAlpha, Bool.true_or]
    exact Nat.lt_of_le_of_lt (Word.isStart_bounds hStart).2 (by decide)
  · simp only [Char.isDigit, Bool.and_eq_true, decide_eq_true_eq, UInt32.le_iff_toNat_le] at hDigit
    exact Nat.lt_of_le_of_lt hDigit.2 (by decide)
  · decide
  · exact of_decide_eq_true (hSigns c hSign)

/-- Of the characters of type names only the space counts as white space. -/
theorem isBlank_iff_of_isPart {c : Char} (hPart : isPart c = true) :
    Text.isBlank c = true ↔ c = ' ' := by
  have hAscii : ∀ n < 128, Text.isBlank (Char.ofNat n) = true → isPart (Char.ofNat n) = true →
      Char.ofNat n = ' ' := by decide +kernel
  constructor
  · intro hBlank
    have hChar := hAscii c.toNat (toNat_lt_of_isPart hPart)
    rw [Char.ofNat_toNat] at hChar
    exact hChar hBlank hPart
  · rintro rfl
    decide

/-- What a successful reading of generic arguments has between the brackets. -/
structure IsArguments (inner : List Char) : Prop where
  hParts : ∀ c ∈ inner, isPart c = true
  hBalanced : IsBalanced inner
  hHead : inner.head? ≠ some ' '
  hLast : inner.getLast? ≠ some ' '

theorem trim_eq_self_iff_of_isPart {inner : List Char} (hParts : ∀ c ∈ inner, isPart c = true) :
    Text.trim inner = inner ↔ inner.head? ≠ some ' ' ∧ inner.getLast? ≠ some ' ' := by
  have hEnd (last : Option Char) (hLast : ∀ c ∈ last, c ∈ inner) :
      (∀ c ∈ last, Text.isBlank c = false) ↔ last ≠ some ' ' := by
    cases last with
    | none => simp
    | some c =>
        have hBlank := isBlank_iff_of_isPart (hParts c (hLast c rfl))
        simp [← hBlank]
  rw [Text.trim_eq_self_iff, hEnd _ fun c => List.mem_of_mem_head?,
    hEnd _ fun c => List.mem_of_mem_getLast?]

/-- Generic arguments are read exactly where they stand before a closing bracket. -/
theorem read?_eq_some_iff {text : List Char} {reading : Reading} :
    read? text = some reading ↔
      ∃ inner after, text = inner ++ '>' :: after ∧ IsArguments inner ∧
        reading = .lexeme ⟨.angle, inner, '<', inner ++ ['>']⟩ after := by
  unfold read?
  constructor
  · intro hRead
    split at hRead
    · cases hRead
    · rename_i inner after hSplit
      split at hRead
      · rename_i hTrim
        cases hRead
        obtain ⟨hText, hParts, hBalanced⟩ := splitClosing_eq_some_iff.mp hSplit
        obtain ⟨hHead, hLast⟩ := (trim_eq_self_iff_of_isPart hParts).mp hTrim
        exact ⟨inner, after, hText, ⟨hParts, hBalanced, hHead, hLast⟩, rfl⟩
      · cases hRead
  · rintro ⟨inner, after, hText, ⟨hParts, hBalanced, hHead, hLast⟩, rfl⟩
    have hSplit : splitClosing 0 text = some (inner, after) :=
      splitClosing_eq_some_iff.mpr ⟨hText, hParts, hBalanced⟩
    have hTrim := (trim_eq_self_iff_of_isPart hParts).mpr ⟨hHead, hLast⟩
    simp only [hSplit, hTrim, if_true]

/-- The bracket that a text opens at the offset `start` is closed at `stop`: that is the first
offset at which as many brackets were closed as opened, all characters up to it may stand in type
names, and no space stands at either end between the brackets. -/
structure ClosesAt (text : List Char) (start stop : Nat) : Prop where
  hOrder : start < stop
  hParts : ∀ c ∈ text.extract start (stop + 1), isPart c = true
  hClosing : text[stop]? = some '>'
  hEqual : (text.extract start (stop + 1)).count '>' = (text.extract start (stop + 1)).count '<'
  hFirst : ∀ i, start ≤ i → i < stop →
    (text.extract start (i + 1)).count '>' ≠ (text.extract start (i + 1)).count '<'
  hHead : (text.extract (start + 1) stop).head? ≠ some ' '
  hLast : (text.extract (start + 1) stop).getLast? ≠ some ' '

section Offsets

variable {text rest : List Char} {first : Char} {start stop : Nat}

theorem extract_from (hText : text.drop start = first :: rest) (length : Nat) :
    text.extract start (start + length + 1) = first :: rest.take length := by
  rw [List.extract_eq_take_drop, hText, Nat.add_assoc, Nat.add_sub_cancel_left,
    List.take_succ_cons]

theorem extract_behind (hText : text.drop start = first :: rest) (length : Nat) :
    text.extract (start + 1) (start + length + 1) = rest.take length := by
  rw [List.extract_eq_take_drop, ← List.tail_drop, hText, List.tail_cons, Nat.add_right_comm,
    Nat.add_sub_cancel_left]

theorem getElem?_behind (hText : text.drop start = first :: rest) (length : Nat) :
    text[start + length + 1]? = rest[length]? := by
  rw [Nat.add_assoc, ← List.getElem?_drop, hText, List.getElem?_cons_succ]

/-- Told by offsets or by the text between the brackets, arguments are the same. -/
theorem closesAt_iff (hText : text.drop start = '<' :: rest) :
    ClosesAt text start stop ↔
      ∃ inner after, rest = inner ++ '>' :: after ∧ IsArguments inner ∧
        stop = start + inner.length + 1 := by
  constructor
  · rintro ⟨hOrder, hParts, hClosing, hEqual, hFirst, hHead, hLast⟩
    obtain ⟨length, rfl⟩ : ∃ length, stop = start + length + 1 := ⟨stop - start - 1, by omega⟩
    rw [getElem?_behind hText] at hClosing
    obtain ⟨hLength, hChar⟩ := List.getElem?_eq_some_iff.mp hClosing
    have hSplit : rest = rest.take length ++ '>' :: rest.drop (length + 1) := by
      rw [← hChar, ← List.drop_eq_getElem_cons, List.take_append_drop]
    have hWhole : rest.take (length + 1) = rest.take length ++ ['>'] := by
      rw [List.take_add_one, hClosing]
      rfl
    rw [Nat.add_assoc start, extract_from hText, hWhole] at hParts hEqual
    rw [extract_behind hText] at hHead hLast
    refine ⟨rest.take length, rest.drop (length + 1), hSplit, ⟨?_, ?_, hHead, hLast⟩, ?_⟩
    · exact fun c hMem => hParts c (List.mem_cons_of_mem _ (List.mem_append_left _ hMem))
    · refine isBalanced_iff.mpr ⟨fun front hFront hOver => ?_, by simpa using hEqual⟩
      have hShorter := hFront.length_le
      rw [List.length_take] at hShorter
      have hTake : rest.take front.length = front :=
        (List.prefix_iff_eq_take.mp (hFront.trans (List.take_prefix length rest))).symm
      refine hFirst (start + front.length) (Nat.le_add_right _ _) (by omega) ?_
      rw [extract_from hText, hTake]
      simpa using hOver
    · rw [List.length_take, Nat.min_eq_left hLength.le]
  · rintro ⟨inner, after, rfl, ⟨hParts, hBalanced, hHead, hLast⟩, rfl⟩
    have hAngles : isPart '<' = true ∧ isPart '>' = true := by decide
    have hInner : (inner ++ '>' :: after).take inner.length = inner := List.take_left
    have hWhole :
        text.extract start (start + (inner.length + 1) + 1) = '<' :: (inner ++ ['>']) := by
      rw [extract_from hText, List.take_add_one, hInner]
      simp
    refine ⟨by omega, ?_, ?_, ?_, ?_, ?_, ?_⟩
    · rw [Nat.add_assoc start, hWhole]
      rw [List.forall_mem_cons, List.forall_mem_append, List.forall_mem_singleton]
      exact ⟨hAngles.1, hParts, hAngles.2⟩
    · rw [getElem?_behind hText]
      simp
    · rw [Nat.add_assoc start, hWhole]
      simpa using hBalanced.hWhole
    · intro i hStart hStop hSame
      obtain ⟨length, rfl⟩ := Nat.exists_eq_add_of_le hStart
      rw [extract_from hText, List.take_append_of_le_length (by omega)] at hSame
      refine (isBalanced_iff.mp hBalanced).1 (inner.take length) (List.take_prefix _ inner) ?_
      simpa using hSame
    · rw [extract_behind hText, hInner]
      exact hHead
    · rw [extract_behind hText, hInner]
      exact hLast

end Offsets

end GenericArguments

end FlatSyntax
