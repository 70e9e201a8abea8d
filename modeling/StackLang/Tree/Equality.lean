import StackLang.Tree.Program

/-!
# Equality of trees

Two trees are equal when they have the same shape and the same names. Floating-point literals
compare as numbers, so a literal that is not a number differs from itself and the two zeros are
equal.
-/

namespace StackLang

/-- Whether two literals are of one form and equal. -/
def Literal.equal : Literal → Literal → Bool
  | .int left, .int right => left == right
  | .float left, .float right => left == right
  | .string left, .string right => left == right
  | .bool left, .bool right => left == right
  | _, _ => false

namespace Expr

mutual

/-- Whether two expressions are equal. -/
def equal : Expr → Expr → Bool
  | .literal left, .literal right => left.equal right
  | .identifier left, .identifier right => left == right
  | .binary operator left right, .binary operator' left' right' =>
    operator == operator' && equal left left' && equal right right'
  | .call callee arguments, .call callee' arguments' =>
    callee == callee' && equalAll arguments arguments'
  | .member object name, .member object' name' => name == name' && equal object object'
  | _, _ => false

/-- Whether two lists of expressions are equal. -/
def equalAll : List Expr → List Expr → Bool
  | [], [] => true
  | left :: lefts, right :: rights => equal left right && equalAll lefts rights
  | _, _ => false

end

/-- Whether two optional expressions are both absent or both present and equal. -/
def equalOption : Option Expr → Option Expr → Bool
  | none, none => true
  | some left, some right => left.equal right
  | _, _ => false

end Expr

namespace Stmt

mutual

/-- Whether two statements are equal. -/
def equal : Stmt → Stmt → Bool
  | .expression left, .expression right => left.equal right
  | .declaration type name initial, .declaration type' name' initial' =>
    type == type' && name == name' && Expr.equalOption initial initial'
  | .assignment target value, .assignment target' value' =>
    target.equal target' && value.equal value'
  | .returning value, .returning value' => Expr.equalOption value value'
  | .block body, .block body' => equalAll body body'
  | .conditional condition thenBranch none, .conditional condition' thenBranch' none =>
    condition.equal condition' && equal thenBranch thenBranch'
  | .conditional condition thenBranch (some elseBranch),
    .conditional condition' thenBranch' (some elseBranch') =>
    condition.equal condition' && equal thenBranch thenBranch' && equal elseBranch elseBranch'
  | _, _ => false

/-- Whether two lists of statements are equal. -/
def equalAll : List Stmt → List Stmt → Bool
  | [], [] => true
  | left :: lefts, right :: rights => equal left right && equalAll lefts rights
  | _, _ => false

end

end Stmt

/-- Whether two items are equal. -/
def Item.equal : Item → Item → Bool
  | .function left, .function right =>
    left.name == right.name && left.returnType == right.returnType
      && left.parameters == right.parameters && Stmt.equalAll left.body right.body
  | .struct left, .struct right => left == right
  | .global left, .global right => left.equal right
  | _, _ => false

end StackLang
