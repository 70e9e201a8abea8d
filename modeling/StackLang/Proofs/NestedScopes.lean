import StackLang.Machine.Step
import StackLang.Proofs.NameLookup
import StackLang.Semantics.Evaluation

/-!
# The tables of nested calls

While a program runs, the symbol tables are the global one and one table for each active call, the
innermost last. `Scopes.ofStore` says so for a store that a statement sees and the variables of the
calls that wait for it. Every operation on tables that the machine carries out is the operation on
the store: reading, writing and defining a variable, entering a call and leaving one.
-/

namespace StackLang

open Semantics

namespace Scopes

/-- The table of a call. -/
def callTable (bindings : Bindings Value) : SymbolTable :=
  ⟨bindings, some .global⟩

/-- The global table and the tables of calls, the outermost first. -/
def nested (globals : Bindings Value) (calls : List (Bindings Value)) : Scopes :=
  ⟨(⟨globals, none⟩ :: calls.map callTable).toArray⟩

/-- The tables while a store is seen and calls with the given variables wait. -/
def ofStore (pending : List (Bindings Value)) (store : Store) : Scopes :=
  nested store.globals (pending ++ store.locals.toList)

@[simp] theorem size_nested (globals : Bindings Value) (calls : List (Bindings Value)) :
    (nested globals calls).size = calls.length + 1 := by
  simp [size, nested]

@[simp] theorem table?_nested_global (globals : Bindings Value) (calls : List (Bindings Value)) :
    (nested globals calls).table? .global = some ⟨globals, none⟩ := by
  simp [table?, nested, ScopeId.global]

@[simp] theorem table?_nested_succ (globals : Bindings Value) (calls : List (Bindings Value))
    (index : Nat) :
    (nested globals calls).table? ⟨index + 1⟩ = calls[index]?.map callTable := by
  simp [table?, nested]

theorem define_nested_global (globals : Bindings Value) (calls : List (Bindings Value))
    (name : String) (value : Value) :
    (nested globals calls).define .global name value =
      nested (globals.insert name value) calls := by
  simp [define, modify, nested, ScopeId.global, SymbolTable.define]

theorem define_nested_last (globals : Bindings Value) (pending : List (Bindings Value))
    (own : Bindings Value) (name : String) (value : Value) :
    (nested globals (pending ++ [own])).define ⟨pending.length + 1⟩ name value =
      nested globals (pending ++ [own.insert name value]) := by
  simp [define, modify, nested, SymbolTable.define, callTable, List.modify_eq_take_cons_drop]

theorem createChild_nested (globals : Bindings Value) (calls : List (Bindings Value)) :
    (nested globals calls).createChild .global = nested globals (calls ++ [{}]) := by
  simp [createChild, nested, callTable]

theorem release_nested_last (globals : Bindings Value) (pending : List (Bindings Value))
    (own : Bindings Value) :
    (nested globals (pending ++ [own])).release ⟨pending.length + 1⟩ = nested globals pending := by
  have newest : (⟨pending.length + 1⟩ : ScopeId) ≠ .global := by
    simp [ScopeId.global]
  have size : pending.length + 1 + 1 = (nested globals (pending ++ [own])).size := by
    simp
  simp only [release, newest, size, ne_eq, not_false_eq_true, and_self, if_true]
  simp [nested, List.dropLast_cons_of_ne_nil]

theorem release_global (scopes : Scopes) : scopes.release .global = scopes := by
  simp [release]

end Scopes

namespace Semantics.Store

/-- The place of the table that a store is looked at from. -/
def place (pending : List (Bindings Value)) (store : Store) : ScopeId :=
  store.locals.elim .global fun _ => ⟨pending.length + 1⟩

@[simp] theorem place_define (pending : List (Bindings Value)) (store : Store) (name : String)
    (value : Value) : (store.define name value).place pending = store.place pending := by
  cases locals : store.locals <;> simp [Store.define, place, locals]

theorem place_write {store after : Store} {name : String} {value : Value}
    (written : store.write name value = .ok after) (pending : List (Bindings Value)) :
    after.place pending = store.place pending := by
  unfold Store.write Store.writeGlobal at written
  split at written
  · next outside =>
    split at written
    · cases written
      rfl
    · cases written
  · next own inside =>
    split at written
    · cases written
      simp [place, inside]
    · split at written
      · cases written
        rfl
      · cases written

end Semantics.Store

namespace Scopes

open Semantics.Store

variable (pending : List (Bindings Value)) (store : Store)

theorem table?_global : (ofStore pending store).table? .global = some ⟨store.globals, none⟩ := by
  simp [ofStore]

theorem table?_place {own : Bindings Value} (locals : store.locals = some own) :
    (ofStore pending store).table? (store.place pending) = some (callTable own) := by
  simp [ofStore, place, locals]

theorem local?_global (name : String) :
    (ofStore pending store).local? .global name = store.globals.find? name := by
  simp [local?, ofStore]

theorem local?_place {own : Bindings Value} (locals : store.locals = some own) (name : String) :
    (ofStore pending store).local? (store.place pending) name = own.find? name := by
  simp [local?, ofStore, place, locals, callTable]

/-- A search in the global table ends there. -/
theorem looks_global (name : String) :
    Looks (ofStore pending store) name .global [.global]
      (if store.globals.contains name then some .global else none) := by
  have live := table?_global pending store
  by_cases bound : store.globals.contains name = true
  · rw [if_pos bound]
    exact .here live bound
  · rw [if_neg bound]
    exact .top live (Bool.not_eq_true _ ▸ bound) rfl

theorem owner?_outside (locals : store.locals = none) (name : String) :
    (ofStore pending store).owner? (store.place pending) name =
      some (if store.globals.contains name then some .global else none) := by
  have here : store.place pending = .global := by
    simp [place, locals]
  rw [here]
  exact (looks_global pending store name).owner?_eq

theorem owner?_inside {own : Bindings Value} (locals : store.locals = some own) (name : String) :
    (ofStore pending store).owner? (store.place pending) name =
      some (if own.contains name then some (store.place pending)
        else if store.globals.contains name then some .global else none) := by
  have live := table?_place pending store locals
  by_cases bound : own.contains name = true
  · rw [if_pos bound]
    exact (Looks.here live bound).owner?_eq
  · rw [if_neg bound]
    apply Looks.owner?_eq
    exact .upward live (Bool.not_eq_true _ ▸ bound) rfl (looks_global pending store name)

/-- Looking a name up from the current table reads the variable. -/
theorem resolve_ofStore (name : String) :
    (ofStore pending store).resolve (store.place pending) name = some (store.read name) := by
  unfold resolve Store.read
  cases locals : store.locals with
  | none =>
    rw [owner?_outside pending store locals]
    cases found : store.globals.find? name <;> simp [Bindings.contains, found, local?_global]
  | some own =>
    rw [owner?_inside pending store locals]
    cases ownFound : own.find? name with
    | some value => simp [Bindings.contains, ownFound, local?_place pending store locals]
    | none =>
      cases found : store.globals.find? name <;>
        simp [Bindings.contains, ownFound, found, local?_global]

/-- Defining a name in the current table makes a variable. -/
theorem define_ofStore (name : String) (value : Value) :
    (ofStore pending store).define (store.place pending) name value =
      ofStore pending (store.define name value) := by
  cases locals : store.locals with
  | none => simp [ofStore, place, Store.define, locals, define_nested_global]
  | some own => simp [ofStore, place, Store.define, locals, define_nested_last]

theorem define_global_ofStore (name : String) (value : Value) :
    (ofStore pending store).define .global name value =
      ofStore pending { store with globals := store.globals.insert name value } := by
  simp [ofStore, define_nested_global]

/-- Storing from the current table writes the variable. -/
theorem assign_ofStore (name : String) (value : Value) :
    (ofStore pending store).assign (store.place pending) name value =
      some ((store.write name value).map (ofStore pending)) := by
  unfold assign
  cases locals : store.locals with
  | none =>
    rw [owner?_outside pending store locals]
    by_cases found : store.globals.contains name = true <;>
      simp [found, Store.write, Store.writeGlobal, locals, define_global_ofStore, Except.map]
  | some own =>
    rw [owner?_inside pending store locals]
    have ownDefined := define_ofStore pending store name value
    simp only [Store.define, locals] at ownDefined
    by_cases ownFound : own.contains name = true
    · simp [ownFound, Store.write, locals, ownDefined, Except.map]
    · by_cases found : store.globals.contains name = true <;>
        simp [ownFound, found, Store.write, Store.writeGlobal, locals, define_global_ofStore,
          Except.map]

/-- The place that the table of a call entered from a store takes. -/
theorem nextId_ofStore :
    (ofStore pending store).nextId = ⟨(pending ++ store.locals.toList).length + 1⟩ := by
  simp [nextId, ofStore]

theorem foldl_define_nested (globals : Bindings Value) (calls : List (Bindings Value))
    (own : Bindings Value) (entries : List (TypedName × Value)) :
    entries.foldl
        (fun scopes entry => scopes.define ⟨calls.length + 1⟩ entry.1.name entry.2)
        (nested globals (calls ++ [own])) =
      nested globals (calls ++
        [entries.foldl (fun bindings entry => bindings.insert entry.1.name entry.2) own]) := by
  induction entries generalizing own with
  | nil => rfl
  | cons entry rest inductionHypothesis =>
    rw [List.foldl_cons, define_nested_last, inductionHypothesis, List.foldl_cons]

/-- Entering a call gives it a table with its parameters above the tables of the callers. The
arguments are bound from the last to the first. -/
theorem bindParameters_ofStore {parameters : List TypedName} {arguments : List Value}
    (arity : parameters.length = arguments.length) :
    Machine.bindParameters (ofStore pending store).nextId parameters arguments.reverse
        ((ofStore pending store).createChild .global) =
      ofStore (pending ++ store.locals.toList)
        { store with locals := some (parameterBindings parameters arguments) } := by
  have zipped : parameters.reverse.zip arguments.reverse = (parameters.zip arguments).reverse := by
    rw [List.zip_eq_zipWith, List.zip_eq_zipWith, List.reverse_zipWith arity]
  rw [nextId_ofStore, ofStore, createChild_nested, Machine.bindParameters, zipped,
    foldl_define_nested]
  simp [ofStore, parameterBindings, Bindings.ofList, List.zip_map_left, ← List.map_reverse,
    List.foldl_map]

/-- Leaving a call releases its table and no other. -/
theorem release_ofStore :
    (ofStore pending store).release (store.place pending) = nested store.globals pending := by
  cases locals : store.locals with
  | none => simp [ofStore, place, locals, release_global]
  | some own => simp [ofStore, place, locals, release_nested_last]

end Scopes

end StackLang
