import StackLang.Tree.Stmt

/-!
# Statements that always return

A list of statements returns on every path when one of them does. A conditional does when it has
both branches and both do; its condition is not looked at.
-/

namespace StackLang.Stmt

mutual

/-- Whether every way through a statement ends in a return. -/
def returns : Stmt → Bool
  | .returning _ => true
  | .block body => anyReturns body
  | .conditional _ thenBranch (some elseBranch) => thenBranch.returns && elseBranch.returns
  | _ => false

/-- Whether every way through a list of statements ends in a return. -/
def anyReturns : List Stmt → Bool
  | [] => false
  | statement :: rest => statement.returns || anyReturns rest

end

end StackLang.Stmt
