import StackLang.Value.Basic

/-!
# Stores

The variables that a running statement sees: those of its own call, if it runs in one, and then the
global ones. Structs in them are values, so a field is changed by putting a changed struct in the
place of the old one.
-/

namespace StackLang

namespace Value

/-- The value with the field at the end of a path of members replaced. All members but the last must
be there and lead from struct to struct; the last one is created if it is absent. -/
def setPath (whole : Value) (members : List String) (value : Value) : Except RunError Value :=
  match members with
  | [] => .ok value
  | [name] => do
    let record ← whole.asStruct
    return .struct (record.insert name value)
  | name :: others => do
    let record ← whole.asStruct
    let part ← Record.field record name
    let changed ← part.setPath others value
    return .struct (record.insert name changed)

end Value

namespace Semantics

/-- The variables that a statement sees. -/
structure Store where
  globals : Bindings Value := {}
  /-- The variables of the call, if the statement is not a global one. -/
  locals : Option (Bindings Value) := none

namespace Store

/-- The value of the nearest variable of a name. -/
def read (store : Store) (name : String) : Except RunError Value :=
  match (store.locals.bind fun own => own.find? name).or (store.globals.find? name) with
  | some value => .ok value
  | none => .error (.undefinedVariable name)

/-- Make a variable in the call, or a global one outside of calls. -/
def define (store : Store) (name : String) (value : Value) : Store :=
  match store.locals with
  | some own => { store with locals := some (own.insert name value) }
  | none => { store with globals := store.globals.insert name value }

/-- Store a value in a global variable. -/
def writeGlobal (store : Store) (name : String) (value : Value) : Except RunError Store :=
  if store.globals.contains name then
    .ok { store with globals := store.globals.insert name value }
  else .error (.undefinedVariable name)

/-- Store a value in the nearest variable of a name. -/
def write (store : Store) (name : String) (value : Value) : Except RunError Store :=
  match store.locals with
  | none => store.writeGlobal name value
  | some own =>
    if own.contains name then .ok { store with locals := some (own.insert name value) }
    else store.writeGlobal name value

end Store

end Semantics

end StackLang
