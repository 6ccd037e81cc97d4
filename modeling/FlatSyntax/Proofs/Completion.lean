import FlatSyntax.Completion
import Mathlib.Data.List.Nodup

/-! Completion as a view of the registered names. The items offered for a text are told by their
membership alone: no two have the same label, and they stand in the order of the labels. So typing
on only takes items away. -/
namespace FlatSyntax

namespace Text

/-- The numbers by which texts are ordered. -/
def codePoints (text : String) : List Nat :=
  text.toList.map Char.toNat

theorem codePoints_lt_iff {a b : String} : codePoints a < codePoints b ↔ a < b := by
  change a.toList.map Char.toNat < b.toList.map Char.toNat ↔ a.toList < b.toList
  generalize a.toList = front
  generalize b.toList = back
  induction front generalizing back with
  | nil => cases back <;> simp
  | cons c rest ih =>
      cases back with
      | nil => simp
      | cons d more =>
          simp only [List.map_cons, List.cons_lt_cons_iff, ih, Char.toNat_inj]
          rfl

end Text

variable {symbols : List Symbol} {symbol : Symbol}

theorem mem_firstOfEachName_iff :
    symbol ∈ firstOfEachName symbols ↔
      symbols.find? (·.name == symbol.name) = some symbol := by
  induction symbols with
  | nil => simp [firstOfEachName]
  | cons head more ih =>
      rw [firstOfEachName, List.mem_cons, List.mem_filter, ih]
      by_cases hName : head.name = symbol.name
      · -- nothing behind the first symbol of a name counts for that name
        rw [List.find?_cons_of_pos (by simp [hName])]
        simp [hName, eq_comm]
      · rw [List.find?_cons_of_neg (by simp [hName])]
        have hOther : symbol ≠ head := by
          rintro rfl
          exact hName rfl
        simp [hOther, Ne.symm hName]

theorem pairwise_firstOfEachName (symbols : List Symbol) :
    (firstOfEachName symbols).Pairwise fun a b => a.name ≠ b.name := by
  induction symbols with
  | nil => exact .nil
  | cons head more ih =>
      refine .cons (fun later hLater => ?_) (ih.filter _)
      have hName := (List.mem_filter.mp hLater).2
      exact (bne_iff_ne.mp hName).symm

/-- Leaving out other names does not change which symbol is the first of a name. -/
theorem find?_filter_name (keeps : String → Bool) (symbols : List Symbol) (name : String) :
    (symbols.filter fun symbol => keeps symbol.name).find? (·.name == name) =
      if keeps name then symbols.find? (·.name == name) else none := by
  induction symbols with
  | nil => simp
  | cons head more ih =>
    by_cases hName : head.name = name <;> by_cases hKeeps : keeps head.name <;> simp_all

/-- The first symbol of each name that starts with the typed text is offered, and nothing else. -/
theorem mem_complete_iff {typed : String} {item : CompletionItem} :
    item ∈ complete symbols typed ↔
      ∃ symbol, symbols.find? (·.name == symbol.name) = some symbol ∧
        typed.toList <+: symbol.name.toList ∧ .ofSymbol symbol = item := by
  simp only [complete, List.mem_mergeSort, List.mem_map, mem_firstOfEachName_iff]
  refine exists_congr fun symbol => ?_
  rw [find?_filter_name fun name => typed.toList.isPrefixOf name.toList]
  by_cases hTyped : typed.toList <+: symbol.name.toList
  · rw [if_pos (List.isPrefixOf_iff_prefix.mpr hTyped)]
    simp only [hTyped, true_and]
  · rw [if_neg (mt List.isPrefixOf_iff_prefix.mp hTyped)]
    simp only [hTyped, reduceCtorEq, false_and, and_false]

theorem exists_first {name : String} (hName : name ∈ symbols.map (·.name)) :
    ∃ symbol, symbols.find? (·.name == name) = some symbol ∧ symbol.name = name := by
  obtain ⟨symbol, hMem, hSymbol⟩ := List.mem_map.mp hName
  have hSome : (symbols.find? (·.name == name)).isSome = true :=
    List.find?_isSome.mpr ⟨symbol, hMem, beq_iff_eq.mpr hSymbol⟩
  obtain ⟨first, hFirst⟩ := Option.isSome_iff_exists.mp hSome
  have hSame := List.find?_some hFirst
  exact ⟨first, hFirst, beq_iff_eq.mp hSame⟩

/-- The labels are the registered names that start with the typed text. -/
theorem mem_labels_complete_iff {typed name : String} :
    name ∈ (complete symbols typed).map (·.label) ↔
      name ∈ symbols.map (·.name) ∧ typed.toList <+: name.toList := by
  constructor
  · intro hLabel
    obtain ⟨item, hItem, rfl⟩ := List.mem_map.mp hLabel
    obtain ⟨symbol, hFirst, hTyped, rfl⟩ := mem_complete_iff.mp hItem
    exact ⟨List.mem_map_of_mem (List.mem_of_find?_eq_some hFirst), hTyped⟩
  · rintro ⟨hName, hTyped⟩
    obtain ⟨symbol, hFirst, rfl⟩ := exists_first hName
    exact List.mem_map.mpr ⟨_, mem_complete_iff.mpr ⟨symbol, hFirst, hTyped, rfl⟩, rfl⟩

/-- The items stand in the order of their labels, and no label is offered twice. -/
theorem pairwise_complete (symbols : List Symbol) (typed : String) :
    (complete symbols typed).Pairwise fun a b => a.label < b.label := by
  have hOrder : (complete symbols typed).Pairwise fun a b => decide (a.label ≤ b.label) = true := by
    refine List.pairwise_mergeSort (fun a b c hFirst hSecond => ?_) (fun a b => ?_) _
    · simp only [decide_eq_true_eq] at hFirst hSecond ⊢
      exact String.le_trans hFirst hSecond
    · simpa using String.le_total a.label b.label
  have hDistinct : (complete symbols typed).Pairwise fun a b => a.label ≠ b.label := by
    refine ((List.mergeSort_perm _ _).pairwise_iff fun hNe => Ne.symm hNe).mpr ?_
    exact List.pairwise_map.mpr (pairwise_firstOfEachName _)
  refine hOrder.imp₂ (fun a b hLe hNe => ?_) hDistinct
  exact Std.lt_of_le_of_ne (of_decide_eq_true hLe) hNe

/-- Items in the order of their labels are told by which items they are. -/
theorem CompletionItem.eq_of_mem_iff {items others : List CompletionItem}
    (hItems : items.Pairwise fun a b => a.label < b.label)
    (hOthers : others.Pairwise fun a b => a.label < b.label)
    (hMem : ∀ item, item ∈ items ↔ item ∈ others) : items = others := by
  have hNodup {list : List CompletionItem} (hList : list.Pairwise fun a b => a.label < b.label) :
      list.Nodup := by
    refine hList.imp fun hLt hSame => ?_
    rw [hSame] at hLt
    exact String.lt_irrefl _ hLt
  refine List.Perm.eq_of_pairwise (fun a b _ _ hLt hGt => ?_) hItems hOthers
    ((List.perm_ext_iff_of_nodup (hNodup hItems) (hNodup hOthers)).mpr hMem)
  exact absurd hGt (String.lt_asymm hLt)

/-- Typing on keeps the items whose labels go on in the same way. -/
theorem complete_append (symbols : List Symbol) (typed more : String) :
    complete symbols (typed ++ more) =
      (complete symbols typed).filter fun item =>
        (typed ++ more).toList.isPrefixOf item.label.toList := by
  refine CompletionItem.eq_of_mem_iff (pairwise_complete symbols _)
    ((pairwise_complete symbols typed).filter _) fun item => ?_
  rw [List.mem_filter, mem_complete_iff, mem_complete_iff, List.isPrefixOf_iff_prefix]
  constructor
  · rintro ⟨symbol, hFirst, hTyped, rfl⟩
    have hShort : typed.toList <+: symbol.name.toList := by
      rw [String.toList_append] at hTyped
      exact (List.prefix_append _ _).trans hTyped
    exact ⟨⟨symbol, hFirst, hShort, rfl⟩, hTyped⟩
  · rintro ⟨⟨symbol, hFirst, -, rfl⟩, hTyped⟩
    exact ⟨symbol, hFirst, hTyped, rfl⟩

/-- Completion offers every registered name that starts with the typed text once, in code point
order, as its first registration describes it. It is what remains of all names, and of the items for
any shorter text. -/
theorem completion_is_sorted_view (symbols : List Symbol) (typed : String) :
    let items := complete symbols typed
    (items.Pairwise fun a b => Text.codePoints a.label < Text.codePoints b.label) ∧
      (∀ name, name ∈ items.map (·.label) ↔
        name ∈ symbols.map (·.name) ∧ typed.toList <+: name.toList) ∧
      (∀ item ∈ items, ∃ symbol, symbols.find? (·.name == item.label) = some symbol ∧
        item.kind = symbol.kind ∧ item.detail = CompletionItem.detailOf symbol) ∧
      items = (complete symbols "").filter
        (fun item => typed.toList.isPrefixOf item.label.toList) ∧
      ∀ more, complete symbols (typed ++ more) = items.filter fun item =>
        (typed ++ more).toList.isPrefixOf item.label.toList := by
  intro items
  refine ⟨(pairwise_complete symbols typed).imp Text.codePoints_lt_iff.mpr,
    fun name => mem_labels_complete_iff, fun item hItem => ?_, ?_, complete_append symbols typed⟩
  · obtain ⟨symbol, hFirst, -, rfl⟩ := mem_complete_iff.mp hItem
    exact ⟨symbol, hFirst, rfl, rfl⟩
  · have hAll := complete_append symbols "" typed
    rw [String.empty_append] at hAll
    exact hAll

theorem completion_is_sorted_view_repeated :
    let symbols : List Symbol :=
      [⟨.binding, "max", ⟨3, 5⟩, "upper bound"⟩, ⟨.function, "main", ⟨5, 1⟩, ""⟩,
        ⟨.function, "max", ⟨9, 1⟩, ""⟩, ⟨.struct, "Map", ⟨1, 8⟩, ""⟩]
    let item : CompletionItem := ⟨"max", "variable (line 3): upper bound", .binding⟩
    item ∈ complete symbols "ma" ∧
      ∃ symbol, symbols.find? (·.name == "max") = some symbol ∧
        item.kind = symbol.kind ∧ item.detail = CompletionItem.detailOf symbol := by
  intro symbols item
  have hMem : item ∈ complete symbols "ma" :=
    mem_complete_iff.mpr ⟨⟨.binding, "max", ⟨3, 5⟩, "upper bound"⟩, by decide, by decide, by decide⟩
  obtain ⟨-, -, hFirst, -⟩ := completion_is_sorted_view symbols "ma"
  exact ⟨hMem, hFirst item hMem⟩

end FlatSyntax
