import StackLang.Tree.Program

/-!
# Errors of compilation

Why a program is refused, and the text that reports it.
-/

namespace StackLang

/-- The cause that a program is refused for. -/
inductive CompileError where
  /-- The operator has no meaning on values. -/
  | unsupportedOperator (operator : BinaryOp)
  /-- A tree of this form cannot stand in this place. -/
  | unsupportedNode (form place : String)
  /-- No type has that name. -/
  | unknownType (name : String)
  /-- A call gives a declared function the wrong number of arguments. -/
  | arityMismatch (function : String) (expected found : Nat)
  /-- A struct contains itself, directly or through others. -/
  | recursiveStruct (name : String)
  /-- A return has a value where none is declared, or none where one is. -/
  | returnTypeMismatch (function declared : String) (hasValue : Bool)
  /-- A function with a value can reach its end without returning one. -/
  | missingReturn (function : String)
  /-- The value of a call that has none is needed. -/
  | voidValue (function : String)
deriving DecidableEq, Repr

namespace CompileError

/-- The text that reports a cause. -/
def message : CompileError → String
  | .unsupportedOperator operator => "unsupported binary operator '" ++ operator.symbol ++ "'"
  | .unsupportedNode form place => "unsupported " ++ form ++ " node in " ++ place
  | .unknownType name => "unknown type '" ++ name ++ "'"
  | .arityMismatch function expected found =>
    "function '" ++ function ++ "' expects " ++ toString expected ++ " argument(s), got "
      ++ toString found
  | .recursiveStruct name => "struct '" ++ name ++ "' contains itself"
  | .returnTypeMismatch function declared hasValue =>
    "function '" ++ function ++ "' is declared '" ++ declared ++ "' but returns "
      ++ (if hasValue then "a value" else "nothing")
  | .missingReturn function =>
    "function '" ++ function ++ "' does not return a value on every path"
  | .voidValue function => "void function '" ++ function ++ "' used as a value"

end CompileError

end StackLang
