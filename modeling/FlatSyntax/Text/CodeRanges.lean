/-!
Classes of characters, each given by a table of code point ranges. The main statement,
`CodeRanges.covers_iff`, says that the search through an ordered table finds exactly the code points
that lie in one of its ranges.
-/

namespace FlatSyntax

/-- A table of code point ranges, both ends included. -/
abbrev CodeRanges := List (Nat × Nat)

namespace CodeRanges

/-- Look a code point up in an ordered table. The first range that does not end before the code
point decides, so a character near the start of the table is found after a few steps. -/
def covers : CodeRanges → Nat → Bool
  | [], _ => false
  | (first, last) :: more, n => if n ≤ last then decide (first ≤ n) else covers more n

/-- Every range is nonempty and ends before the next one starts. -/
def ordered : CodeRanges → Bool
  | [] => true
  | [(first, last)] => decide (first ≤ last)
  | (first, last) :: (next, last') :: more =>
      decide (first ≤ last) && decide (last < next) && ordered ((next, last') :: more)

/-- In an ordered table all later ranges start after the end of the first one. -/
theorem lt_first_of_ordered {first last : Nat} {more : CodeRanges}
    (hOrdered : ordered ((first, last) :: more) = true) :
    ∀ range ∈ more, last < range.1 := by
  induction more generalizing first last with
  | nil => simp
  | cons head rest ih =>
      obtain ⟨next, last'⟩ := head
      simp only [ordered, Bool.and_eq_true, decide_eq_true_eq] at hOrdered
      intro range hRange
      rcases List.mem_cons.mp hRange with rfl | hRest
      · exact hOrdered.1.2
      · have hNext : next ≤ last' := by
          cases rest <;> simp_all [ordered]
        have hLater := ih hOrdered.2 range hRest
        omega

theorem ordered_tail {range : Nat × Nat} {more : CodeRanges}
    (hOrdered : ordered (range :: more) = true) : ordered more = true := by
  obtain ⟨first, last⟩ := range
  cases more with
  | nil => rfl
  | cons next rest =>
      simp only [ordered, Bool.and_eq_true] at hOrdered
      exact hOrdered.2

/-- A code point is found in an ordered table exactly when one of the ranges holds it. -/
theorem covers_iff {table : CodeRanges} (hOrdered : ordered table = true) (n : Nat) :
    covers table n = true ↔ ∃ range ∈ table, range.1 ≤ n ∧ n ≤ range.2 := by
  induction table with
  | nil => simp [covers]
  | cons head more ih =>
      obtain ⟨first, last⟩ := head
      by_cases hLast : n ≤ last
      · simp only [covers, hLast, if_true, decide_eq_true_eq]
        constructor
        · exact fun hFirst => ⟨_, List.mem_cons_self, hFirst, hLast⟩
        · rintro ⟨range, hMem, hFirst, -⟩
          rcases List.mem_cons.mp hMem with rfl | hMore
          · exact hFirst
          · have hLater := lt_first_of_ordered hOrdered range hMore
            omega
      · simp only [covers, hLast, if_false]
        rw [ih (ordered_tail hOrdered)]
        constructor
        · rintro ⟨range, hMore, hHolds⟩
          exact ⟨range, List.mem_cons_of_mem _ hMore, hHolds⟩
        · rintro ⟨range, hMem, hHolds⟩
          rcases List.mem_cons.mp hMem with rfl | hMore
          · exact absurd hHolds.2 hLast
          · exact ⟨range, hMore, hHolds⟩

end CodeRanges

end FlatSyntax
