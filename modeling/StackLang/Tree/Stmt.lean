import StackLang.Tree.Expr

/-!
# Statements

Statements of a program tree. A block groups statements and opens no scope of its own.
-/

namespace StackLang

/-- A statement. -/
inductive Stmt where
  /-- An expression evaluated for its effect. -/
  | expression (expr : Expr)
  /-- A new variable of a named type, with a first value or the default of its type. -/
  | declaration (type name : String) (initial : Option Expr)
  /-- A value stored in a variable or in a field of one. -/
  | assignment (target value : Expr)
  /-- The end of a call, with or without a value. -/
  | returning (value : Option Expr)
  /-- Statements in order. -/
  | block (body : List Stmt)
  /-- A choice between a statement and possibly another. -/
  | conditional (condition : Expr) (thenBranch : Stmt) (elseBranch : Option Stmt)

instance : Inhabited Stmt := ⟨.block []⟩

/-- The name of a statement's form in messages. -/
def Stmt.form : Stmt → String
  | .expression _ => "ExpressionStatement"
  | .declaration _ _ _ => "VariableDeclaration"
  | .assignment _ _ => "Assignment"
  | .returning _ => "Return"
  | .block _ => "Block"
  | .conditional _ _ _ => "If"

end StackLang
