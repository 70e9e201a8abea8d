import StackLang.Machine.Settings
import StackLang.Semantics.Store
import StackLang.StructTypes
import StackLang.Value.Arithmetic

/-!
# The meaning of programs

What a program computes, said on its tree and without code, stacks or addresses. Statements change a
store; a call runs a body in a store of its own over the same global variables. How a called
function is carried out is a parameter of expressions and statements, and `invoke` closes the circle
by the number of calls that may still become active, which every call lowers by one.
-/

namespace StackLang.Semantics

/-- An error, with the calls that were active when it arose, the outermost first. -/
structure Fault where
  cause : RunError
  active : List String := []
deriving DecidableEq, Repr

/-- A computation that changes a store and may stop with a fault. -/
abbrev Evaluation := EStateM Fault Store

/-- How a statement ends: control goes on behind it, or its call returns. -/
inductive Flow where
  | onward
  | returned (value : Option Value)

/-- What carries out a call of a named function with given arguments. -/
abbrev Callee := String → List Value → Evaluation (Option Value)

/-- Stop with the error of a computation, or go on with its value. -/
def lift {α : Type} : Except RunError α → Evaluation α
  | .ok value => pure value
  | .error cause => throw { cause }

/-- Make a fault of the given action one inside a call of the named function. -/
def inside {α : Type} (function : String) (action : Evaluation α) : Evaluation α := fun store =>
  match action store with
  | .ok value next => .ok value next
  | .error fault next => .error { fault with active := function :: fault.active } next

mutual

/-- The value of an expression. Operands and arguments are evaluated from left to right. -/
def evalExpr (invoke : Callee) : Expr → Evaluation Value
  | .literal value => pure value.toValue
  | .identifier name => do lift ((← get).read name)
  | .binary operator left right => do
    let leftValue ← evalExpr invoke left
    let rightValue ← evalExpr invoke right
    match operator with
    | .evaluated operator => lift (operator.apply leftValue rightValue)
    | _ => pure .none
  | .call callee arguments => do
    let values ← evalExprs invoke arguments
    return (← invoke callee values).getD .none
  | .member object name => do
    let record ← lift (← evalExpr invoke object).asStruct
    lift (Record.field record name)

/-- The values of expressions, evaluated from left to right. -/
def evalExprs (invoke : Callee) : List Expr → Evaluation (List Value)
  | [] => pure []
  | expr :: rest => do
    let value ← evalExpr invoke expr
    let values ← evalExprs invoke rest
    return value :: values

end

/-- Store a value in the variable or field that a target denotes. -/
def assign (target : Expr) (value : Value) : Evaluation Unit :=
  match target.path with
  | .error _ => pure ()
  | .ok (root, members) => do
    let store ← get
    let whole ← lift (if members.isEmpty then pure .none else store.read root)
    let changed ← lift (whole.setPath members value)
    set (← lift (store.write root changed))

mutual

/-- The effect of a statement. -/
def evalStmt (types : StructTypes) (invoke : Callee) : Stmt → Evaluation Flow
  | .expression expr => do
    let _ ← evalExpr invoke expr
    return .onward
  | .declaration type name initial => do
    let value ←
      match initial with
      | some expr => evalExpr invoke expr
      | none => pure ((types.defaultValue type).toOption.getD .none)
    modify fun store => store.define name value
    return .onward
  | .assignment target value => do
    assign target (← evalExpr invoke value)
    return .onward
  | .returning none => return .returned none
  | .returning (some expr) => do return .returned (some (← evalExpr invoke expr))
  | .block body => evalStmts types invoke body
  | .conditional condition thenBranch none => do
    if ← lift (← evalExpr invoke condition).asCondition then evalStmt types invoke thenBranch
    else return .onward
  | .conditional condition thenBranch (some elseBranch) => do
    if ← lift (← evalExpr invoke condition).asCondition then evalStmt types invoke thenBranch
    else evalStmt types invoke elseBranch

/-- The effect of statements in order, up to the first that returns. -/
def evalStmts (types : StructTypes) (invoke : Callee) : List Stmt → Evaluation Flow
  | [] => return .onward
  | statement :: rest => do
    match ← evalStmt types invoke statement with
    | .onward => evalStmts types invoke rest
    | .returned value => return .returned value

end

/-- The variables of a call. Of several parameters with one name the first keeps it. -/
def parameterBindings (parameters : List TypedName) (arguments : List Value) : Bindings Value :=
  Bindings.ofList ((parameters.map TypedName.name).zip arguments).reverse

/-- Run a function body in a store of its own over the global variables, and give its value. The
caller's variables are as before afterwards. -/
def runFunction (types : StructTypes) (invoke : Callee) (function : FunctionDecl)
    (arguments : List Value) : Evaluation (Option Value) := do
  let caller ← get
  set { caller with locals := some (parameterBindings function.parameters arguments) }
  let flow ← inside function.name (evalStmts types invoke function.body)
  modify fun store => { store with locals := caller.locals }
  match flow with
  | .onward => return none
  | .returned value => return value

/-- Carry out a call when `remaining` more calls may become active. -/
def invoke (functions : Bindings FunctionDecl) (types : StructTypes) (settings : Settings) :
    Nat → Callee
  | remaining, callee, arguments =>
    match functions.find? callee, remaining with
    | none, _ => throw { cause := .functionNotFound callee }
    | some _, 0 => throw { cause := .recursionTooDeep settings.maxCallDepth }
    | some function, remaining + 1 =>
      runFunction types (invoke functions types settings remaining) function arguments

/-- Run the global statements, which count as an active call, and then the start function, which is
given no arguments. -/
def evalProgram (program : Program) (types : StructTypes) (settings : Settings) :
    Evaluation (Option Value) := do
  let functions := program.functions
  let called := invoke functions types settings (settings.maxCallDepth - 1)
  match functions.find? entryPoint with
  | none => throw { cause := .mainNotFound }
  | some main =>
    let _ ← inside globalOwner (evalStmts types called program.globalStatements)
    if settings.maxCallDepth = 0 then throw { cause := .recursionTooDeep 0 }
    else if main.arity ≠ 0 then throw { cause := .stackUnderflow }
    else runFunction types called main []

end StackLang.Semantics
