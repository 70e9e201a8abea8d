import StackLang.Lowering.Expr
import StackLang.Tree.Returns

/-!
# Code of statements and bodies

The code of a statement leaves the stack as high as it was. Structs are values, so an assignment to
a field loads the struct around the field, stores the new value in it and goes on outwards with the
struct as the new value, until the variable itself is stored.
-/

namespace StackLang

namespace Emitter

/-- Emit the load of a variable and of one member after the other. -/
def emitPath (emitter : Emitter) (root : String) (members : List String) : Emitter :=
  members.foldl (fun emitter name => emitter.emitNamed .loadField name)
    (emitter.emitNamed .loadVar root)

/-- Emit the store of the top of the stack at the end of a path, whose members are given from the
innermost outwards. -/
def emitStorePath (root : String) : List String → Emitter → Emitter
  | [], emitter => emitter.emitNamed .storeVar root
  | name :: outer, emitter =>
    emitStorePath root outer ((emitter.emitPath root outer.reverse).emitNamed .storeField name)

end Emitter

namespace Stmt

/-- Emit the code of a declaration. The type must be known even if its default is not used. -/
def lowerDeclaration (context : BodyContext) (type name : String) (initial : Option Expr)
    (emitter : Emitter) : Except CompileError Emitter := do
  let default ← context.types.defaultValue type
  let emitter ←
    match initial with
    | some expr => expr.lower context emitter
    | none =>
      if default.isKind .struct then .ok (emitter.emitWith .newStruct default)
      else .ok (emitter.emitConstant default)
  return emitter.emitNamed .defineVar name

/-- Emit the code of an assignment. -/
def lowerAssignment (context : BodyContext) (target value : Expr) (emitter : Emitter) :
    Except CompileError Emitter :=
  match target with
  | .identifier name => do
    let emitter ← value.lower context emitter
    return emitter.emitNamed .storeVar name
  | .member _ _ =>
    match target.path with
    | .error node => .error (.unsupportedNode node.form "member assignment root")
    | .ok (root, members) => do
      let emitter ← value.lower context emitter
      return emitter.emitStorePath root members.reverse
  | other => .error (.unsupportedNode other.form "assignment target")

/-- Emit the code of a return, which must have a value exactly if its function is declared to. -/
def lowerReturn (context : BodyContext) (value : Option Expr) (emitter : Emitter) :
    Except CompileError Emitter :=
  match context.enclosing with
  | none => .error (.unsupportedNode (Stmt.returning value).form "global scope")
  | some function =>
    let emitter := emitter.setTag (context.tag "return")
    match value, function.returnsValue with
    | some expr, true => do
      let emitter ← expr.lower context emitter
      return emitter.emit .returnValue
    | none, false => .ok (emitter.emit .returnVoid)
    | some _, false => .error (.returnTypeMismatch function.name function.returnType true)
    | none, true => .error (.returnTypeMismatch function.name function.returnType false)

mutual

/-- Emit the code of a statement. -/
def lower (context : BodyContext) : Stmt → Emitter → Except CompileError Emitter
  | .expression expr, emitter =>
    expr.lowerForEffect context (emitter.setTag (context.tag "expr"))
  | .declaration type name initial, emitter =>
    lowerDeclaration context type name initial (emitter.setTag (context.tag "decl"))
  | .assignment target value, emitter =>
    lowerAssignment context target value (emitter.setTag (context.tag "assign"))
  | .returning value, emitter => lowerReturn context value emitter
  | .block body, emitter => lowerAll context body emitter
  | .conditional condition thenBranch none, emitter => do
    let emitter ← condition.lower context (emitter.setTag (context.tag "if"))
    let toEnd := emitter.nextLabel
    let emitter ← thenBranch.lower context (emitter.emitJump .jumpIfFalse)
    return emitter.patch toEnd
  | .conditional condition thenBranch (some elseBranch), emitter => do
    let emitter ← condition.lower context (emitter.setTag (context.tag "if"))
    let toElse := emitter.nextLabel
    let emitter ← thenBranch.lower context (emitter.emitJump .jumpIfFalse)
    let emitter := emitter.setTag (context.tag "if")
    let toEnd := emitter.nextLabel
    let emitter := (emitter.emitJump .jump).patch toElse
    let emitter ← elseBranch.lower context emitter
    return emitter.patch toEnd

/-- Emit the code of statements, one after the other. -/
def lowerAll (context : BodyContext) : List Stmt → Emitter → Except CompileError Emitter
  | [], emitter => .ok emitter
  | statement :: rest, emitter => do
    let emitter ← statement.lower context emitter
    lowerAll context rest emitter

end

end Stmt

namespace BodyContext

/-- The code of a body: its statements and a return, so that control never runs on into the code
behind it. -/
def compileBody (context : BodyContext) (body : List Stmt) : Except CompileError Bytecode := do
  let emitter ← Stmt.lowerAll context body {}
  return ((emitter.setTag (context.tag "end")).emit .returnVoid).code

end BodyContext

namespace StructTypes

/-- Accept the types of parameters. -/
def checkParameters (types : StructTypes) : List TypedName → Except CompileError Unit
  | [] => .ok ()
  | parameter :: rest => do
    types.check parameter.type
    types.checkParameters rest

end StructTypes

namespace FunctionDecl

/-- Accept the signature of a function, and its body if it returns on every path or need not. -/
def check (function : FunctionDecl) (types : StructTypes) : Except CompileError Unit := do
  types.checkReturn function.returnType
  types.checkParameters function.parameters
  if function.returnsValue && !Stmt.anyReturns function.body then
    throw (.missingReturn function.name)

/-- The code of a function among the last declarations of all functions. -/
def compile (function : FunctionDecl) (functions : Bindings FunctionDecl) (types : StructTypes) :
    Except CompileError Bytecode := do
  function.check types
  (BodyContext.forFunction functions types function).compileBody function.body

end FunctionDecl

end StackLang
