import FlatSyntax.Source.Location

/-!
Symbol tables: the record of every declaration in a source text, in the order of registration. A
table only grows; a name that is registered twice is recorded twice.
-/

namespace FlatSyntax

inductive SymbolKind where
  | struct
  | scope
  | function
  | binding
deriving DecidableEq, Repr

namespace SymbolKind

/-- All kinds in their listed order. -/
def all : List SymbolKind := [struct, scope, function, binding]

/-- The word that listings show. -/
def word : SymbolKind → String
  | struct => "struct"
  | scope => "namespace"
  | function => "function"
  | binding => "variable"

def ofWord? (word : String) : Option SymbolKind :=
  all.find? (·.word == word)

theorem mem_all (kind : SymbolKind) : kind ∈ all := by cases kind <;> decide

theorem ofWord?_word (kind : SymbolKind) : ofWord? kind.word = some kind := by
  cases kind <;> decide

end SymbolKind

/-- A registered declaration. The documentation is empty where there is none. -/
structure Symbol where
  kind : SymbolKind
  name : String
  position : Position
  doc : String := ""
deriving DecidableEq, Repr

structure SymbolTable where
  /-- All records in the order of registration. -/
  symbols : List Symbol := []
deriving DecidableEq, Repr

namespace SymbolTable

def empty : SymbolTable := {}

def register (table : SymbolTable) (symbol : Symbol) : SymbolTable :=
  { symbols := table.symbols ++ [symbol] }

/-- Register several declarations one after the other. -/
def registerAll (table : SymbolTable) (symbols : List Symbol) : SymbolTable :=
  { symbols := table.symbols ++ symbols }

def size (table : SymbolTable) : Nat := table.symbols.length

def ofKind (table : SymbolTable) (kind : SymbolKind) : List Symbol :=
  table.symbols.filter (·.kind == kind)

/-- All records of a name. -/
def find (table : SymbolTable) (name : String) : List Symbol :=
  table.symbols.filter (·.name == name)

/-- The registered names, each once, in the order of their first registration. -/
def names (table : SymbolTable) : List String :=
  (table.symbols.map (·.name)).eraseDups

/-- The form in which messages show a table. -/
def render (table : SymbolTable) : String :=
  "SymbolTable(" ++ toString table.size ++ " symbols)"

@[simp] theorem symbols_register (table : SymbolTable) (symbol : Symbol) :
    (table.register symbol).symbols = table.symbols ++ [symbol] := rfl

@[simp] theorem symbols_registerAll (table : SymbolTable) (symbols : List Symbol) :
    (table.registerAll symbols).symbols = table.symbols ++ symbols := rfl

theorem registerAll_eq_foldl (table : SymbolTable) (symbols : List Symbol) :
    table.registerAll symbols = symbols.foldl register table := by
  induction symbols generalizing table with
  | nil => simp [registerAll]
  | cons symbol more ih => simp [← ih, registerAll, register]

end SymbolTable

end FlatSyntax
