import StackLang.Value.Basic

/-!
# Scopes

Symbol tables in the order of their creation, each but the first with a parent. The first is the
global one and stays for ever; of the others only the newest can be released, and its place is taken
by the next one created.
-/

namespace StackLang

/-- The place of a symbol table. -/
structure ScopeId where
  index : Nat
deriving DecidableEq, Repr

namespace ScopeId

/-- The place of the global table. -/
def global : ScopeId := ⟨0⟩

/-- The text of a place. -/
def text (scope : ScopeId) : String :=
  "ScopeId(" ++ toString scope.index ++ ")"

/-- The text that reports a definition in a place without a table. -/
def releasedMessage (scope : ScopeId) : String :=
  "define in released scope " ++ scope.text

end ScopeId

/-- Values bound to names, with a table to look in for other names. -/
structure SymbolTable where
  bindings : Bindings Value := {}
  parent : Option ScopeId := none

/-- Bind a name in a table. -/
def SymbolTable.define (table : SymbolTable) (name : String) (value : Value) : SymbolTable :=
  { table with bindings := table.bindings.insert name value }

/-- The live symbol tables. -/
structure Scopes where
  /-- The tables, the global one first. -/
  tables : Array SymbolTable := #[{}]

namespace Scopes

/-- The number of live tables. -/
def size (scopes : Scopes) : Nat :=
  scopes.tables.size

/-- The table at a place. -/
def table? (scopes : Scopes) (scope : ScopeId) : Option SymbolTable :=
  scopes.tables[scope.index]?

/-- The value bound to a name in the table at a place. -/
def local? (scopes : Scopes) (scope : ScopeId) (name : String) : Option Value :=
  (scopes.table? scope).bind fun table => table.bindings.find? name

/-- The place of the next table that is created. -/
def nextId (scopes : Scopes) : ScopeId :=
  ⟨scopes.size⟩

/-- Create an empty table with the given parent at `nextId`. -/
def createChild (scopes : Scopes) (parent : ScopeId) : Scopes :=
  ⟨scopes.tables.push ⟨{}, some parent⟩⟩

/-- Remove the newest table. Any other table, and the global one, stays. -/
def release (scopes : Scopes) (scope : ScopeId) : Scopes :=
  if scope ≠ .global ∧ scope.index + 1 = scopes.size then ⟨scopes.tables.pop⟩ else scopes

/-- Change the table at a place, if there is one. -/
def modify (scopes : Scopes) (scope : ScopeId) (change : SymbolTable → SymbolTable) : Scopes :=
  ⟨scopes.tables.modify scope.index change⟩

/-- Whether there is a table at a place. -/
def isLive (scopes : Scopes) (scope : ScopeId) : Bool :=
  scope.index < scopes.size

/-- Bind a name in the table at a place, if there is one. -/
def define (scopes : Scopes) (scope : ScopeId) (name : String) (value : Value) : Scopes :=
  scopes.modify scope fun table => table.define name value

/-- Bind a name in the table at a place that has one. -/
def define? (scopes : Scopes) (scope : ScopeId) (name : String) (value : Value) : Option Scopes :=
  if scopes.isLive scope then some (scopes.define scope name value) else none

/-- Look for the nearest table that binds a name, from a place through parents. There is no answer
if more than `fuel` tables have to be looked at: a parent need not be live when a table is created,
and once its place is taken again, parents can go round in a circle. -/
def search (scopes : Scopes) (name : String) (fuel : Nat) (scope : ScopeId) :
    Option (Option ScopeId) :=
  match scopes.table? scope, fuel with
  | none, _ => some none
  | some _, 0 => none
  | some table, fuel + 1 =>
    if table.bindings.contains name then some (some scope)
    else
      match table.parent with
      | none => some none
      | some parent => scopes.search name fuel parent

/-- The nearest table that binds a name. A search that ends looks at no table twice, so there is no
need to look at more of them than there are; there is no answer if it never ends. -/
def owner? (scopes : Scopes) (scope : ScopeId) (name : String) : Option (Option ScopeId) :=
  scopes.search name scopes.size scope

/-- The value of the nearest binding of a name, if the search for it ends. -/
def resolve (scopes : Scopes) (scope : ScopeId) (name : String) :
    Option (Except RunError Value) :=
  (scopes.owner? scope name).map fun owner =>
    match owner.bind fun place => scopes.local? place name with
    | some value => .ok value
    | none => .error (.undefinedVariable name)

/-- Store a value in the nearest binding of a name, if the search for it ends. -/
def assign (scopes : Scopes) (scope : ScopeId) (name : String) (value : Value) :
    Option (Except RunError Scopes) :=
  (scopes.owner? scope name).map fun owner =>
    match owner with
    | some place => .ok (scopes.define place name value)
    | none => .error (.undefinedVariable name)

@[simp] theorem size_createChild (scopes : Scopes) (parent : ScopeId) :
    (scopes.createChild parent).size = scopes.size + 1 := by
  simp [size, createChild]

@[simp] theorem size_define (scopes : Scopes) (scope : ScopeId) (name : String) (value : Value) :
    (scopes.define scope name value).size = scopes.size := by
  simp [size, define, modify]

theorem isLive_iff {scopes : Scopes} {scope : ScopeId} :
    scopes.isLive scope = true ↔ scope.index < scopes.size :=
  decide_eq_true_iff

/-- A definition leaves all tables where they are. -/
theorem isLive_define (scopes : Scopes) (scope other : ScopeId) (name : String) (value : Value) :
    (scopes.define scope name value).isLive other = scopes.isLive other := by
  rw [isLive, isLive, size_define]

theorem release_newest {scopes : Scopes} {scope : ScopeId} (isLocal : scope ≠ .global)
    (newest : scope.index + 1 = scopes.size) : scopes.release scope = ⟨scopes.tables.pop⟩ :=
  if_pos ⟨isLocal, newest⟩

end Scopes

end StackLang
