import StackLang.Kind
import StackLang.Operator

/-!
# Errors of a run

What can stop an operation on values or a run of the machine, and the text that reports it.
-/

namespace StackLang

/-- The cause that stopped a run. -/
inductive RunError where
  /-- No table on the way to the global one binds the name. -/
  | undefinedVariable (name : String)
  /-- The struct has no field of that name. -/
  | undefinedField (field : String)
  /-- The called function is not in the function table. -/
  | functionNotFound (name : String)
  /-- A value of one kind stands where another kind is needed. -/
  | typeMismatch (expected actual : Kind)
  /-- The operator has no meaning on operands of these kinds. -/
  | unsupportedOperation (operator : Operator) (left right : Kind)
  /-- No kind of value has that name. -/
  | invalidTypeName (name : String)
  /-- An integer was divided by zero. -/
  | divisionByZero
  /-- A value was taken from an empty operand stack. -/
  | stackUnderflow
  /-- A value was put on an operand stack that holds as many as it may. -/
  | stackOverflow (limit : Nat)
  /-- A call would make more frames active than allowed. -/
  | recursionTooDeep (limit : Nat)
  /-- There is no function to start in. -/
  | mainNotFound
  /-- A jump leads out of the code. -/
  | invalidJumpTarget (address : Int)
  /-- There is no instruction at the program counter. -/
  | programCounterOutOfRange (address : Nat)
  /-- More than one value is left after the start function returned. -/
  | unbalancedStack (remaining : Nat)
deriving DecidableEq, Repr

namespace RunError

/-- The text that reports a cause. -/
def message : RunError → String
  | .undefinedVariable name => "undefined variable '" ++ name ++ "'"
  | .undefinedField field => "undefined field '" ++ field ++ "'"
  | .functionNotFound name => "function '" ++ name ++ "' not found"
  | .typeMismatch expected actual =>
    "type mismatch: expected " ++ expected.name ++ ", got " ++ actual.name
  | .unsupportedOperation operator left right =>
    "unsupported operation: " ++ left.name ++ " " ++ operator.symbol ++ " " ++ right.name
  | .invalidTypeName name => "invalid type name '" ++ name ++ "'"
  | .divisionByZero => "division by zero"
  | .stackUnderflow => "operand stack underflow"
  | .stackOverflow limit => "operand stack overflow (limit " ++ toString limit ++ ")"
  | .recursionTooDeep limit => "recursion too deep (limit " ++ toString limit ++ ")"
  | .mainNotFound => "entry point 'main' not found"
  | .invalidJumpTarget address => "invalid jump target " ++ toString address
  | .programCounterOutOfRange address =>
    "program counter " ++ toString address ++ " out of range"
  | .unbalancedStack remaining =>
    "operand stack not empty after main returned (" ++ toString remaining ++ " values left)"

end RunError

end StackLang
