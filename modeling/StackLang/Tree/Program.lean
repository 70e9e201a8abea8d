import StackLang.Tree.Stmt

/-!
# Programs

A program is a list of functions, struct types and global statements. A name may be declared more
than once; its last declaration is the one that a look-up finds.
-/

namespace StackLang

/-- A parameter or a field with the name of its type. -/
structure TypedName where
  type : String
  name : String
deriving DecidableEq, Repr

/-- The type name, in any letter case, of functions that return nothing. -/
def voidName : String := "void"

/-- Whether a return type name means that nothing is returned. -/
def isVoid (type : String) : Bool :=
  Text.sameIgnoringCase type voidName

/-- The name that stands for the global statements where a function would be named. -/
def globalOwner : String := "global"

/-- The declaration of a function. -/
structure FunctionDecl where
  name : String
  returnType : String
  parameters : List TypedName
  body : List Stmt

namespace FunctionDecl

/-- The number of arguments a function takes. -/
def arity (function : FunctionDecl) : Nat :=
  function.parameters.length

/-- Whether calls of a function have a value. -/
def returnsValue (function : FunctionDecl) : Bool :=
  !isVoid function.returnType

end FunctionDecl

/-- The declaration of a struct type. -/
structure StructDecl where
  name : String
  fields : List TypedName
deriving DecidableEq, Repr

/-- A part of a program. -/
inductive Item where
  | function (declaration : FunctionDecl)
  | struct (declaration : StructDecl)
  | global (statement : Stmt)

/-- The name of an item's form in messages. -/
def Item.form : Item → String
  | .function _ => "FunctionDeclaration"
  | .struct _ => "StructDeclaration"
  | .global statement => statement.form

/-- A program. -/
structure Program where
  items : List Item

namespace Program

/-- Every function declaration, in program order. -/
def functionDecls (program : Program) : List FunctionDecl :=
  program.items.filterMap fun
    | .function declaration => some declaration
    | _ => none

/-- Every struct declaration, in program order. -/
def structDecls (program : Program) : List StructDecl :=
  program.items.filterMap fun
    | .struct declaration => some declaration
    | _ => none

/-- The statements outside functions, in program order. -/
def globalStatements (program : Program) : List Stmt :=
  program.items.filterMap fun
    | .global statement => some statement
    | _ => none

/-- The last declaration of each function name. -/
def functions (program : Program) : Bindings FunctionDecl :=
  Bindings.ofList (program.functionDecls.map fun declaration => (declaration.name, declaration))

/-- The last declaration of each struct name. -/
def structs (program : Program) : Bindings StructDecl :=
  Bindings.ofList (program.structDecls.map fun declaration => (declaration.name, declaration))

/-- The last declaration of a function. -/
def function? (program : Program) (name : String) : Option FunctionDecl :=
  program.functions.find? name

/-- The last declaration of a struct type. -/
def struct? (program : Program) (name : String) : Option StructDecl :=
  program.structs.find? name

end Program

end StackLang
