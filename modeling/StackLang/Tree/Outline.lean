import StackLang.Tree.Program
import StackLang.Value.Text

/-!
# Outlines of trees

A tree shown one node to a line, each line indented by the depth of its node. Below a conditional
stand its condition and its first branch; the second branch stands below a line of its own, which
is as deep as the conditional.
-/

namespace StackLang

/-- A line of an outline. -/
structure OutlineLine where
  depth : Nat
  text : String
deriving DecidableEq, Repr

namespace OutlineLine

/-- A line indented by two spaces for each step of depth, with its line end. -/
def render (line : OutlineLine) : String :=
  String.ofList (List.replicate (2 * line.depth) ' ') ++ line.text ++ "\n"

/-- Lines one below the other. -/
def renderAll (lines : List OutlineLine) : String :=
  String.join (lines.map render)

end OutlineLine

namespace Expr

mutual

/-- The outline of an expression. -/
def outline (depth : Nat) : Expr → List OutlineLine
  | .literal value => [⟨depth, "Literal " ++ value.toValue.text⟩]
  | .identifier name => [⟨depth, "Identifier " ++ name⟩]
  | .binary operator left right =>
    ⟨depth, "BinaryOperation " ++ operator.symbol⟩
      :: (outline (depth + 1) left ++ outline (depth + 1) right)
  | .call callee arguments =>
    ⟨depth, "FunctionCall " ++ callee⟩ :: outlineAll (depth + 1) arguments
  | .member object name => ⟨depth, "MemberAccess ." ++ name⟩ :: outline (depth + 1) object

/-- The outlines of expressions, one after the other. -/
def outlineAll (depth : Nat) : List Expr → List OutlineLine
  | [] => []
  | expr :: rest => outline depth expr ++ outlineAll depth rest

end

/-- The outline of an expression that may be absent. -/
def outlineOption (depth : Nat) (expr : Option Expr) : List OutlineLine :=
  expr.elim [] (outline depth)

end Expr

namespace Stmt

mutual

/-- The outline of a statement. -/
def outline (depth : Nat) : Stmt → List OutlineLine
  | .expression expr => ⟨depth, "ExpressionStatement"⟩ :: expr.outline (depth + 1)
  | .declaration type name initial =>
    ⟨depth, "VariableDeclaration " ++ type ++ " " ++ name⟩
      :: Expr.outlineOption (depth + 1) initial
  | .assignment target value =>
    ⟨depth, "Assignment"⟩ :: (target.outline (depth + 1) ++ value.outline (depth + 1))
  | .returning value => ⟨depth, "Return"⟩ :: Expr.outlineOption (depth + 1) value
  | .block body => ⟨depth, "Block"⟩ :: outlineAll (depth + 1) body
  | .conditional condition thenBranch none =>
    ⟨depth, "If"⟩ :: (condition.outline (depth + 1) ++ outline (depth + 1) thenBranch)
  | .conditional condition thenBranch (some elseBranch) =>
    ⟨depth, "If"⟩ :: (condition.outline (depth + 1) ++ outline (depth + 1) thenBranch)
      ++ ⟨depth, "Else"⟩ :: outline (depth + 1) elseBranch

/-- The outlines of statements, one after the other. -/
def outlineAll (depth : Nat) : List Stmt → List OutlineLine
  | [] => []
  | statement :: rest => outline depth statement ++ outlineAll depth rest

end

end Stmt

/-- A type and a name as they are written in a declaration. -/
def TypedName.text (typed : TypedName) : String :=
  typed.type ++ " " ++ typed.name

namespace Item

/-- The outline of an item. -/
def outline (depth : Nat) : Item → List OutlineLine
  | .function declaration =>
    let parameters := ", ".intercalate (declaration.parameters.map TypedName.text)
    ⟨depth, "FunctionDeclaration " ++ declaration.name ++ "(" ++ parameters ++ ") -> "
        ++ declaration.returnType⟩
      :: Stmt.outlineAll (depth + 1) declaration.body
  | .struct declaration =>
    ⟨depth, "StructDeclaration " ++ declaration.name⟩
      :: declaration.fields.map fun field => ⟨depth + 1, "Field " ++ field.text⟩
  | .global statement => statement.outline depth

end Item

/-- The outline of a program. -/
def Program.outline (program : Program) : List OutlineLine :=
  ⟨0, "Program"⟩ :: program.items.flatMap (Item.outline 1)

end StackLang
