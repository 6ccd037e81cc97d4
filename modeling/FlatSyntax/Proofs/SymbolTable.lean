import FlatSyntax.SymbolTable
import Mathlib

/-! The views of a symbol table. However registrations and queries are mixed, the table holds the
registered records in their order, every view is told by those records, and a query leaves nothing
behind that a later answer could show. -/
namespace FlatSyntax

/-- Elements that are sorted under distinct keys are all there, those that occur twice included. -/
theorem perm_flatMap_filter {Element Key : Type} [DecidableEq Key] (key : Element → Key)
    {keys : List Key} (hKeys : keys.Nodup) {elements : List Element}
    (hAll : ∀ element ∈ elements, key element ∈ keys) :
    (keys.flatMap fun k => elements.filter (key · == k)).Perm elements := by
  induction keys generalizing elements with
  | nil =>
      have hNil : elements = [] :=
        List.eq_nil_iff_forall_not_mem.mpr fun element hMem =>
          List.not_mem_nil (hAll element hMem)
      rw [hNil, List.flatMap_nil]
  | cons first more ih =>
      obtain ⟨hFirst, hMore⟩ := List.nodup_cons.mp hKeys
      let others := elements.filter fun element => !(key element == first)
      have hOthers : ∀ element ∈ others, key element ∈ more := fun element hMem => by
        obtain ⟨hElement, hKey⟩ := List.mem_filter.mp hMem
        have hNe : key element ≠ first := by simpa using hKey
        exact (List.mem_cons.mp (hAll element hElement)).resolve_left hNe
      -- leaving out the elements of the first key changes nothing under the other keys
      have hSame : (more.flatMap fun k => elements.filter (key · == k)) =
          more.flatMap fun k => others.filter (key · == k) := by
        refine List.flatMap_congr fun k hMem => ?_
        rw [List.filter_filter]
        refine List.filter_congr fun element _ => ?_
        have hNe : k ≠ first := fun hEq => hFirst (hEq ▸ hMem)
        by_cases hKey : key element = k <;> simp [hKey, hNe]
      rw [List.flatMap_cons, hSame]
      exact ((ih hMore hOthers).append_left _).trans (List.filter_append_perm _ _)

namespace SymbolTable

/-- A declaration to be registered, or a query. -/
inductive Request where
  | register (symbol : Symbol)
  | symbols
  | iterate
  | ofKind (kind : SymbolKind)
  | find (name : String)
  | names
  | size
  | render
deriving DecidableEq, Repr

inductive Answer where
  | done
  | records (symbols : List Symbol)
  | names (names : List String)
  | count (count : Nat)
  | text (text : String)
deriving DecidableEq, Repr

/-- The record that a request adds. A request that adds none is a query. -/
def Request.registered? : Request → Option Symbol
  | .register symbol => some symbol
  | _ => none

/-- Answer one request. -/
def serve (table : SymbolTable) : Request → Answer × SymbolTable
  | .register symbol => (.done, table.register symbol)
  | .symbols => (.records table.symbols, table)
  | .iterate => (.records table.symbols, table)
  | .ofKind kind => (.records (table.ofKind kind), table)
  | .find name => (.records (table.find name), table)
  | .names => (.names table.names, table)
  | .size => (.count table.size, table)
  | .render => (.text table.render, table)

/-- Answer several requests one after the other. -/
def serveAll (table : SymbolTable) : List Request → List Answer × SymbolTable
  | [] => ([], table)
  | request :: more =>
      let served := table.serve request
      let rest := served.2.serveAll more
      (served.1 :: rest.1, rest.2)

variable (table : SymbolTable)

theorem symbols_serve (request : Request) :
    (table.serve request).2.symbols = table.symbols ++ request.registered?.toList := by
  cases request <;> simp [serve, Request.registered?]

theorem symbols_serveAll (requests : List Request) :
    (table.serveAll requests).2.symbols =
      table.symbols ++ requests.filterMap Request.registered? := by
  induction requests generalizing table with
  | nil => simp [serveAll]
  | cons request more ih =>
      rw [serveAll, ih, symbols_serve, List.append_assoc]
      cases hRegistered : request.registered? with
      | none => simp [hRegistered]
      | some symbol => simp [hRegistered]

/-- A query leaves the table as it was. -/
theorem serve_query {request : Request} (hQuery : request.registered? = none) :
    (table.serve request).2 = table := by
  cases request with
  | register symbol => nomatch hQuery
  | _ => rfl

theorem serveAll_append (before after : List Request) :
    table.serveAll (before ++ after) =
      let first := table.serveAll before
      let second := first.2.serveAll after
      (first.1 ++ second.1, second.2) := by
  induction before generalizing table with
  | nil => rfl
  | cons request more ih => simp [serveAll, ih]

theorem length_serveAll (requests : List Request) :
    (table.serveAll requests).1.length = requests.length := by
  induction requests generalizing table with
  | nil => rfl
  | cons request more ih => simp [serveAll, ih]

/-- Without one of its queries a run gives all the other answers, and leaves the same table. -/
theorem serveAll_eraseIdx_query (before after : List Request) {query : Request}
    (hQuery : query.registered? = none) :
    let served := table.serveAll (before ++ query :: after)
    (served.1.eraseIdx before.length, served.2) = table.serveAll (before ++ after) := by
  have hLength := length_serveAll table before
  simp only [serveAll_append, serveAll, serve_query _ hQuery]
  rw [List.eraseIdx_append_of_length_le (Nat.le_of_eq hLength), hLength, Nat.sub_self,
    List.eraseIdx_zero, List.tail_cons]

theorem mem_names_iff {name : String} : name ∈ table.names ↔ name ∈ table.symbols.map (·.name) :=
  List.mem_eraseDups

theorem mem_names_iff_find {name : String} : name ∈ table.names ↔ table.find name ≠ [] := by
  simp [mem_names_iff, find, List.filter_eq_nil_iff]

/-- A name is listed behind the others when it is first registered, and never again. -/
theorem names_register (symbol : Symbol) :
    (table.register symbol).names =
      if symbol.name ∈ table.names then table.names else table.names ++ [symbol.name] := by
  have hAppend : (table.register symbol).names =
      table.names ++ ([symbol.name].removeAll (table.symbols.map (·.name))).eraseDups := by
    rw [names, symbols_register, List.map_append, List.eraseDups_append]
    rfl
  rw [hAppend]
  by_cases hMem : symbol.name ∈ table.symbols.map (·.name)
  · rw [if_pos (table.mem_names_iff.mpr hMem), List.removeAll,
      List.filter_cons_of_neg (by simpa using hMem), List.filter_nil, List.eraseDups_nil,
      List.append_nil]
  · rw [if_neg (mt table.mem_names_iff.mp hMem), List.removeAll,
      List.filter_cons_of_pos (by simpa using hMem), List.filter_nil, List.eraseDups_cons]
    rfl

/-- The index of the first record of a name, the size of the table where there is none. -/
def firstIndex (name : String) : Nat :=
  table.symbols.findIdx (·.name == name)

theorem firstIndex_lt_size_iff {name : String} :
    table.firstIndex name < table.size ↔ name ∈ table.names := by
  rw [firstIndex, size, List.findIdx_lt_length, mem_names_iff]
  simp

theorem firstIndex_register (symbol : Symbol) {name : String} (hName : name ∈ table.names) :
    (table.register symbol).firstIndex name = table.firstIndex name := by
  rw [firstIndex, symbols_register, List.findIdx_append]
  exact if_pos (table.firstIndex_lt_size_iff.mpr hName)

theorem firstIndex_register_new {symbol : Symbol} (hNew : symbol.name ∉ table.names) :
    (table.register symbol).firstIndex symbol.name = table.size := by
  rw [firstIndex, symbols_register, List.findIdx_append]
  refine (if_neg (mt table.firstIndex_lt_size_iff.mp hNew)).trans ?_
  simp [List.findIdx_cons, size]

/-- Registering a declaration keeps the names in the order of their first records. -/
theorem pairwise_names_register (symbol : Symbol)
    (hPairwise : table.names.Pairwise fun a b => table.firstIndex a < table.firstIndex b) :
    (table.register symbol).names.Pairwise fun a b =>
      (table.register symbol).firstIndex a < (table.register symbol).firstIndex b := by
  have hKept : table.names.Pairwise fun a b =>
      (table.register symbol).firstIndex a < (table.register symbol).firstIndex b :=
    hPairwise.imp_of_mem fun hA hB hLt => by
      rwa [table.firstIndex_register symbol hA, table.firstIndex_register symbol hB]
  rw [names_register]
  split
  case isTrue => exact hKept
  case isFalse hNew =>
    refine List.pairwise_append.mpr ⟨hKept, List.pairwise_singleton _ _, fun a hA b hB => ?_⟩
    rw [List.mem_singleton.mp hB, table.firstIndex_register symbol hA,
      table.firstIndex_register_new hNew]
    exact table.firstIndex_lt_size_iff.mpr hA

/-- The names stand in the order of their first records. -/
theorem pairwise_names :
    table.names.Pairwise fun a b => table.firstIndex a < table.firstIndex b := by
  obtain ⟨symbols⟩ := table
  induction symbols using List.reverseRecOn with
  | nil => exact .nil
  | append_singleton symbols symbol ih => exact pairwise_names_register ⟨symbols⟩ symbol ih

theorem nodup_names : table.names.Nodup := by
  refine table.pairwise_names.imp fun {a b} hLt hEq => ?_
  rw [hEq] at hLt
  exact Nat.lt_irrefl _ hLt

theorem mem_ofKind_iff {kind : SymbolKind} {symbol : Symbol} :
    symbol ∈ table.ofKind kind ↔ symbol ∈ table.symbols ∧ symbol.kind = kind := by
  rw [ofKind, List.mem_filter, beq_iff_eq]

theorem mem_find_iff {name : String} {symbol : Symbol} :
    symbol ∈ table.find name ↔ symbol ∈ table.symbols ∧ symbol.name = name := by
  rw [find, List.mem_filter, beq_iff_eq]

theorem flatMap_ofKind_perm : (SymbolKind.all.flatMap table.ofKind).Perm table.symbols :=
  perm_flatMap_filter Symbol.kind (by decide) fun symbol _ => SymbolKind.mem_all symbol.kind

theorem flatMap_find_perm : (table.names.flatMap table.find).Perm table.symbols :=
  perm_flatMap_filter Symbol.name table.nodup_names fun _ hMem =>
    table.mem_names_iff.mpr (List.mem_map_of_mem hMem)

theorem sum_length_find :
    (table.names.map fun name => (table.find name).length).sum = table.size := by
  rw [← List.length_flatMap, table.flatMap_find_perm.length_eq, size]

/-- The views of a table agree with the given records and with each other. -/
structure Coherent (records : List Symbol) : Prop where
  hSymbols : (table.serve .symbols).1 = .records records
  hIterate : (table.serve .iterate).1 = .records records
  hSize : table.size = records.length
  hKind : ∀ kind symbol, symbol ∈ table.ofKind kind ↔ symbol ∈ records ∧ symbol.kind = kind
  hKindOrder : ∀ kind, (table.ofKind kind).Sublist records
  /-- Every record has one kind under which it is listed. -/
  hOneKind : ∀ symbol ∈ records, ∃! kind, symbol ∈ table.ofKind kind
  /-- The lists of the kinds have every record as often as it was registered. -/
  hKinds : (SymbolKind.all.flatMap table.ofKind).Perm records
  hNames : table.names.Nodup
  hNamesOrder : table.names.Pairwise fun a b =>
    records.findIdx (·.name == a) < records.findIdx (·.name == b)
  hNamed : ∀ name, name ∈ table.names ↔ table.find name ≠ []
  hFind : ∀ name symbol, symbol ∈ table.find name ↔ symbol ∈ records ∧ symbol.name = name
  hFindOrder : ∀ name, (table.find name).Sublist records
  hFinds : (table.names.flatMap table.find).Perm records
  hFindSum : (table.names.map fun name => (table.find name).length).sum = table.size

theorem coherent_symbols : table.Coherent table.symbols where
  hSymbols := rfl
  hIterate := rfl
  hSize := rfl
  hKind _ _ := table.mem_ofKind_iff
  hKindOrder _ := List.filter_sublist
  hOneKind symbol hMem :=
    ⟨symbol.kind, table.mem_ofKind_iff.mpr ⟨hMem, rfl⟩, fun _ hOther =>
      (table.mem_ofKind_iff.mp hOther).2.symm⟩
  hKinds := table.flatMap_ofKind_perm
  hNames := table.nodup_names
  hNamesOrder := table.pairwise_names
  hNamed _ := table.mem_names_iff_find
  hFind _ _ := table.mem_find_iff
  hFindOrder _ := List.filter_sublist
  hFinds := table.flatMap_find_perm
  hFindSum := table.sum_length_find

/-- However a table was asked and filled, its views agree with the registered records in their
order. Each request is answered from what was registered before it, and a run without one of its
queries gives all the other answers and leaves the same table. -/
theorem views_are_coherent (requests : List Request) :
    let served := empty.serveAll requests
    served.2.Coherent (requests.filterMap Request.registered?) ∧
      ∀ before request after, requests = before ++ request :: after →
        let earlier : SymbolTable := { symbols := before.filterMap Request.registered? }
        served.1[before.length]? = some (earlier.serve request).1 ∧
          (request.registered? = none →
            (served.1.eraseIdx before.length, served.2) = empty.serveAll (before ++ after)) := by
  refine ⟨?_, fun before request after hRequests => ⟨?_, fun hQuery => ?_⟩⟩
  · have hSymbols := symbols_serveAll empty requests
    have hCoherent := coherent_symbols (empty.serveAll requests).2
    rwa [hSymbols] at hCoherent
  · have hEarlier : (empty.serveAll before).2 =
        { symbols := before.filterMap Request.registered? } :=
      congrArg SymbolTable.mk (symbols_serveAll empty before)
    have hLength := length_serveAll empty before
    rw [hRequests, serveAll_append, ← hEarlier]
    simp [serveAll, ← hLength]
  · rw [hRequests]
    exact serveAll_eraseIdx_query empty before after hQuery

theorem views_are_coherent_repeated :
    let first : Symbol := ⟨.struct, "Foo", ⟨1, 8⟩, ""⟩
    let other : Symbol := ⟨.function, "bar", ⟨2, 1⟩, "Opens."⟩
    let again : Symbol := ⟨.binding, "Foo", ⟨4, 1⟩, ""⟩
    let before : List Request := [.register first, .register other, .names]
    let query : Request := .find "Foo"
    let after : List Request := [.register again, .names, .find "Foo", .ofKind .binding, .size]
    let served := empty.serveAll (before ++ query :: after)
    query.registered? = none ∧
      served.1 =
        [.done, .done, .names ["Foo", "bar"], .records [first], .done, .names ["Foo", "bar"],
          .records [first, again], .records [again], .count 3] ∧
      served.2.Coherent [first, other, again] ∧
      served.1[before.length]? = some (.records [first]) ∧
      (served.1.eraseIdx before.length, served.2) = empty.serveAll (before ++ after) := by
  refine ⟨rfl, by decide, (views_are_coherent _).1, ?_⟩
  obtain ⟨hAnswer, hOthers⟩ := (views_are_coherent _).2 _ _ _ rfl
  exact ⟨hAnswer, hOthers rfl⟩

end SymbolTable

end FlatSyntax
