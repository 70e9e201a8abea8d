import StackLang.CompileError

/-!
# Struct types

A type name is the name of a kind of value, in any letter case, or else of a declared struct. Each
struct type has a prototype: the struct that a variable of the type starts with, every field holding
the default of its own type. There is none if a field has an unknown type or if a struct contains
itself.
-/

namespace StackLang

namespace StructTypes

/-- The names of a list other than the given one. -/
def without (names : List String) (name : String) : List String :=
  names.filter fun other => other ≠ name

theorem length_without_lt {names : List String} {name : String} (member : name ∈ names) :
    (without names name).length < names.length :=
  List.length_filter_lt_length_iff_exists.mpr ⟨name, member, by simp⟩

/-- Fill in the fields of a struct with their defaults. `idle` names the declared structs that are
not being filled in at the moment, and `built` holds the prototypes that are ready; those met on the
way are added to it, so that each is filled in once only. A field of a declared struct type that is
neither ready nor idle would make a struct contain itself. -/
def fillIn (declared : Bindings StructDecl) (idle : List String) (fields : List TypedName)
    (built : Bindings Record) (record : Record) :
    Except CompileError (Record × Bindings Record) :=
  match fields with
  | [] => .ok (record, built)
  | field :: rest =>
    match Kind.ofName? field.type with
    | some kind => fillIn declared idle rest built (record.insert field.name (.zero kind))
    | none =>
      match built.find? field.type with
      | some nested => fillIn declared idle rest built (record.insert field.name (.struct nested))
      | none =>
        match declared.find? field.type with
        | none => .error (.unknownType field.type)
        | some declaration =>
          if field.type ∈ idle then
            match fillIn declared (without idle field.type) declaration.fields built {} with
            | .ok (nested, built) =>
              fillIn declared idle rest (built.insert field.type nested)
                (record.insert field.name (.struct nested))
            | .error cause => .error cause
          else .error (.recursiveStruct field.type)
termination_by (idle.length, fields.length)
decreasing_by
  · exact Prod.Lex.right _ (Nat.lt_succ_self _)
  · exact Prod.Lex.right _ (Nat.lt_succ_self _)
  · exact Prod.Lex.left _ _ (length_without_lt ‹_›)
  · exact Prod.Lex.right _ (Nat.lt_succ_self _)

/-- Add the prototype of a declared struct to those that are ready. -/
def build (declared : Bindings StructDecl) (declaration : StructDecl) (built : Bindings Record) :
    Except CompileError (Bindings Record) :=
  match built.find? declaration.name with
  | some _ => .ok built
  | none =>
    match fillIn declared (without declared.names declaration.name) declaration.fields built {} with
    | .ok (record, built) => .ok (built.insert declaration.name record)
    | .error cause => .error cause

/-- Add the prototypes of declared structs, one after the other. -/
def buildAll (declared : Bindings StructDecl) :
    List StructDecl → Bindings Record → Except CompileError (Bindings Record)
  | [], built => .ok built
  | declaration :: rest, built =>
    match build declared declaration built with
    | .ok built => buildAll declared rest built
    | .error cause => .error cause

end StructTypes

/-- The struct types of a program. -/
structure StructTypes where
  prototypes : Bindings Record

namespace StructTypes

/-- The struct types of a program, whose structs are looked at in program order by the last
declaration of their names. -/
def ofProgram (program : Program) : Except CompileError StructTypes :=
  let declared := program.structs
  let last (declaration : StructDecl) := (declared.find? declaration.name).getD declaration
  match buildAll declared (program.structDecls.map last) {} with
  | .ok built => .ok ⟨built⟩
  | .error cause => .error cause

/-- The value that a variable of a type starts with. -/
def defaultValue (types : StructTypes) (type : String) : Except CompileError Value :=
  match Kind.ofName? type with
  | some kind => .ok (.zero kind)
  | none =>
    match types.prototypes.find? type with
    | some record => .ok (.struct record)
    | none => .error (.unknownType type)

/-- Accept the name of a type. -/
def check (types : StructTypes) (type : String) : Except CompileError Unit :=
  match types.defaultValue type with
  | .ok _ => .ok ()
  | .error cause => .error cause

/-- Accept the name of a type or the word for returning nothing. -/
def checkReturn (types : StructTypes) (type : String) : Except CompileError Unit :=
  if isVoid type then .ok () else types.check type

end StructTypes

end StackLang
