import FlatSyntax.Outline
import FlatSyntax.Proofs.Text.Place
import Mathlib.Data.List.Nodup

/-! Outlines as an arrangement of the registered symbols. An outline has the entries of the symbols
in reading order, and those at one position as they were registered. So where no two symbols share a
position, the order of registration does not matter. -/
namespace FlatSyntax

namespace Position

variable {a b : Position}

theorem notAfter_iff : a.notAfter b = true ↔ a.Before b ∨ a = b := by
  obtain ⟨line, column⟩ := a
  obtain ⟨line', column'⟩ := b
  simp only [notAfter, Before, Bool.or_eq_true, Bool.and_eq_true, decide_eq_true_eq, beq_iff_eq,
    mk.injEq]
  omega

theorem notAfter_total (a b : Position) : (a.notAfter b || b.notAfter a) = true := by
  simp only [notAfter, Bool.or_eq_true, Bool.and_eq_true, decide_eq_true_eq, beq_iff_eq]
  omega

theorem notAfter_trans (a b c : Position) (hFirst : a.notAfter b = true)
    (hSecond : b.notAfter c = true) : a.notAfter c = true := by
  simp only [notAfter, Bool.or_eq_true, Bool.and_eq_true, decide_eq_true_eq, beq_iff_eq] at *
  omega

/-- Two places that are not after each other are one place. -/
theorem notAfter_antisymm (hFirst : a.notAfter b = true) (hSecond : b.notAfter a = true) :
    a = b := by
  obtain hBefore | hSame := notAfter_iff.mp hFirst
  · obtain hBack | hSame := notAfter_iff.mp hSecond
    · unfold Before at *
      omega
    · exact hSame.symm
  · exact hSame

end Position

variable {symbols : List Symbol}

theorem outline_perm (symbols : List Symbol) : (outline symbols).Perm (symbols.map .ofSymbol) :=
  List.mergeSort_perm _ _

theorem pairwise_outline (symbols : List Symbol) :
    (outline symbols).Pairwise fun a b => a.position.notAfter b.position = true := by
  unfold outline
  exact List.pairwise_mergeSort
    (fun a b c => Position.notAfter_trans a.position b.position c.position)
    (fun a b => Position.notAfter_total a.position b.position) _

/-- Symbols in reading order are listed as they were registered. -/
theorem outline_eq_map
    (hOrder : symbols.Pairwise fun a b => a.position.Before b.position) :
    outline symbols = symbols.map .ofSymbol := by
  apply List.mergeSort_of_pairwise
  rw [List.pairwise_map]
  exact hOrder.imp fun hBefore => Position.notAfter_iff.mpr (.inl hBefore)

/-- Entries that are in order already stay in that order, whatever stands between them. -/
theorem sublist_outline {entries : List OutlineEntry}
    (hOrder : entries.Pairwise fun a b => a.position.notAfter b.position = true)
    (hSublist : entries.Sublist (symbols.map .ofSymbol)) : entries.Sublist (outline symbols) := by
  unfold outline
  exact List.sublist_mergeSort
    (fun a b c => Position.notAfter_trans a.position b.position c.position)
    (fun a b => Position.notAfter_total a.position b.position) hOrder hSublist

/-- The entries of one position stand in the order in which its symbols were registered. -/
theorem filter_outline (symbols : List Symbol) (position : Position) :
    (outline symbols).filter (·.position == position) =
      (symbols.filter (·.position == position)).map .ofSymbol := by
  let entries := (symbols.map OutlineEntry.ofSymbol).filter (·.position == position)
  have hEntries : (symbols.filter (·.position == position)).map .ofSymbol = entries := by
    simp only [entries, List.filter_map]
    rfl
  have hOrder : entries.Pairwise fun a b => a.position.notAfter b.position = true := by
    refine List.pairwise_of_forall_mem_list fun a hFirst b hSecond => ?_
    have hHere := beq_iff_eq.mp (List.mem_filter.mp hFirst).2
    have hThere := beq_iff_eq.mp (List.mem_filter.mp hSecond).2
    exact Position.notAfter_iff.mpr (.inr (hHere.trans hThere.symm))
  -- the entries of one position are in order already, and the outline has no others of it
  have hKept := (sublist_outline hOrder List.filter_sublist).filter (·.position == position)
  rw [List.filter_filter] at hKept
  simp only [Bool.and_self] at hKept
  have hLength := ((outline_perm symbols).filter (·.position == position)).length_eq
  rw [hEntries]
  exact (hKept.eq_of_length hLength.symm).symm

/-- The order of registration does not matter where no two symbols share a position. -/
theorem outline_eq_of_perm {other : List Symbol} (hPerm : other.Perm symbols)
    (hPositions : (symbols.map (·.position)).Nodup) : outline other = outline symbols := by
  have hEntries : (outline other).Perm (outline symbols) :=
    (outline_perm other).trans ((hPerm.map _).trans (outline_perm symbols).symm)
  have hDistinct : ((outline symbols).map (·.position)).Nodup := by
    refine ((outline_perm symbols).map _).nodup_iff.mpr ?_
    rwa [List.map_map]
  -- entries that are not after each other share a position, so they are one entry
  refine List.Perm.eq_of_pairwise (fun a b hFirst hSecond hForth hBack => ?_)
    (pairwise_outline other) (pairwise_outline symbols) hEntries
  exact List.inj_on_of_nodup_map hDistinct (hEntries.mem_iff.mp hFirst) hSecond
    (Position.notAfter_antisymm hForth hBack)

/-- An outline has one entry for each registered symbol, with its kind, its name, its position and
the first full line of its documentation. The entries are in reading order, and those of one
position as their symbols were registered. Symbols at distinct positions give the same outline in
whatever order they were registered. -/
theorem outline_is_canonical_order (symbols : List Symbol) :
    let entries := outline symbols
    let entryOf (symbol : Symbol) : OutlineEntry :=
      { kind := symbol.kind, name := symbol.name, position := symbol.position
        summary := String.ofList (Text.firstFullLine symbol.doc.toList) }
    entries.Perm (symbols.map entryOf) ∧
      (entries.Pairwise fun a b => a.position.Before b.position ∨ a.position = b.position) ∧
      (∀ position, entries.filter (·.position == position) =
        (symbols.filter (·.position == position)).map entryOf) ∧
      ∀ other : List Symbol, other.Perm symbols → (symbols.map (·.position)).Nodup →
        outline other = entries :=
  ⟨outline_perm symbols, (pairwise_outline symbols).imp Position.notAfter_iff.mp,
    filter_outline symbols, fun _ => outline_eq_of_perm⟩

theorem outline_is_canonical_order_reversed :
    let symbols : List Symbol :=
      [⟨.struct, "Foo", ⟨-1, 100000000000000000000⟩, ""⟩,
        ⟨.binding, "x", ⟨7, -4⟩, "\n a point \nin space"⟩, ⟨.function, "main", ⟨7, 2⟩, ""⟩]
    let entries : List OutlineEntry :=
      [⟨.struct, "Foo", ⟨-1, 100000000000000000000⟩, ""⟩, ⟨.binding, "x", ⟨7, -4⟩, "a point"⟩,
        ⟨.function, "main", ⟨7, 2⟩, ""⟩]
    symbols.reverse.Perm symbols ∧ (symbols.map (·.position)).Nodup ∧
      outline symbols = entries ∧ outline symbols.reverse = entries := by
  intro symbols entries
  have hPerm : symbols.reverse.Perm symbols := List.reverse_perm symbols
  have hPositions : (symbols.map (·.position)).Nodup := by decide
  have hOrder : symbols.Pairwise fun a b => a.position.Before b.position := by
    simp [symbols, Position.Before]
  have hEntries : outline symbols = entries := (outline_eq_map hOrder).trans (by decide +kernel)
  obtain ⟨-, -, -, hSame⟩ := outline_is_canonical_order symbols
  exact ⟨hPerm, hPositions, hEntries, (hSame _ hPerm hPositions).trans hEntries⟩

end FlatSyntax
