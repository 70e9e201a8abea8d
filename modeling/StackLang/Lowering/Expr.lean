import StackLang.Lowering.BodyContext

/-!
# Code of expressions

The code of an expression leaves one value more on the stack. Operands and arguments come from left
to right.
-/

namespace StackLang

/-- The operator on values that a written operator stands for. -/
def BinaryOp.toOperator : BinaryOp → Except CompileError Operator
  | .evaluated operator => .ok operator
  | other => .error (.unsupportedOperator other)

namespace Expr

mutual

/-- Emit the code of an expression. -/
def lower (context : BodyContext) : Expr → Emitter → Except CompileError Emitter
  | .literal value, emitter => .ok (emitter.emitConstant value.toValue)
  | .identifier name, emitter => .ok (emitter.emitNamed .loadVar name)
  | .binary operator left right, emitter => do
    let operator ← operator.toOperator
    let emitter ← left.lower context emitter
    let emitter ← right.lower context emitter
    return emitter.emit (.binary operator)
  | .call callee arguments, emitter => do
    context.requireValue callee
    context.requireArity callee arguments.length
    let emitter ← lowerAll context arguments emitter
    return emitter.emitNamed .callFunc callee
  | .member object name, emitter => do
    let emitter ← object.lower context emitter
    return emitter.emitNamed .loadField name

/-- Emit the code of expressions, one after the other. -/
def lowerAll (context : BodyContext) : List Expr → Emitter → Except CompileError Emitter
  | [], emitter => .ok emitter
  | expr :: rest, emitter => do
    let emitter ← expr.lower context emitter
    lowerAll context rest emitter

end

/-- Emit the code of an expression whose value is not needed. A call without a value is allowed here
and only here. -/
def lowerForEffect (context : BodyContext) (expr : Expr) (emitter : Emitter) :
    Except CompileError Emitter :=
  match expr with
  | .call callee arguments => do
    context.requireArity callee arguments.length
    let emitter ← lowerAll context arguments emitter
    let emitter := emitter.emitNamed .callFunc callee
    return if context.callHasValue callee then emitter.emit .pop else emitter
  | _ => do
    let emitter ← expr.lower context emitter
    return emitter.emit .pop

end Expr

end StackLang
