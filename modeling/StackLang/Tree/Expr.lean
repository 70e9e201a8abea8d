import StackLang.Value.Basic

/-!
# Expressions

Expressions of a program tree. A chain of member accesses that starts at a variable is a path;
`Expr.path` takes it apart and `Expr.chain` puts it together.
-/

namespace StackLang

/-- A value written in a program. -/
inductive Literal where
  | int (number : Int64)
  | float (number : Float)
  | string (text : String)
  | bool (truth : Bool)

/-- The value a literal denotes. -/
def Literal.toValue : Literal → Value
  | .int number => .int number
  | .float number => .float number
  | .string text => .string text
  | .bool truth => .bool truth

/-- A binary operator in a program tree. Logical and bitwise operators can be written but have no
meaning on values. -/
inductive BinaryOp where
  | evaluated (operator : Operator)
  | logicalAnd
  | logicalOr
  | bitwiseAnd
  | bitwiseOr
  | bitwiseXor
deriving DecidableEq, Repr

namespace BinaryOp

/-- How an operator is written. -/
def symbol : BinaryOp → String
  | .evaluated operator => operator.symbol
  | .logicalAnd => "&&"
  | .logicalOr => "||"
  | .bitwiseAnd => "&"
  | .bitwiseOr => "|"
  | .bitwiseXor => "^"

/-- Every operator that can be written. -/
def all : List BinaryOp :=
  Operator.all.map .evaluated ++ [.logicalAnd, .logicalOr, .bitwiseAnd, .bitwiseOr, .bitwiseXor]

/-- The operator written with the given symbol. -/
def ofSymbol? (text : String) : Option BinaryOp :=
  all.find? fun operator => operator.symbol == text

end BinaryOp

/-- An expression. -/
inductive Expr where
  /-- A literal. -/
  | literal (value : Literal)
  /-- A variable. -/
  | identifier (name : String)
  /-- An operator between two expressions. -/
  | binary (operator : BinaryOp) (left right : Expr)
  /-- A call of a named function. -/
  | call (callee : String) (arguments : List Expr)
  /-- A field of a struct. -/
  | member (object : Expr) (name : String)

instance : Inhabited Expr := ⟨.identifier ""⟩

namespace Expr

/-- The name of an expression's form in messages. -/
def form : Expr → String
  | .literal _ => "Literal"
  | .identifier _ => "Identifier"
  | .binary _ _ _ => "BinaryOperation"
  | .call _ _ => "FunctionCall"
  | .member _ _ => "MemberAccess"

/-- The variable that members are accessed on, member by member. -/
def chain (root : String) (members : List String) : Expr :=
  members.foldl .member (.identifier root)

/-- The root variable of a chain of member accesses and the members in the order of access; or the
first expression on the way to the root that is neither a member access nor a variable. -/
def path : Expr → Except Expr (String × List String)
  | .identifier name => .ok (name, [])
  | .member object name =>
    match object.path with
    | .ok (root, members) => .ok (root, members ++ [name])
    | .error node => .error node
  | other => .error other

theorem chain_concat (root : String) (members : List String) (name : String) :
    chain root (members ++ [name]) = .member (chain root members) name := by
  simp [chain]

end Expr

end StackLang
