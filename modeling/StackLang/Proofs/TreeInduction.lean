import StackLang.Tree.Stmt

/-!
# Induction over trees

Arguments of calls and statements of blocks stand in lists inside their trees. The principles here
give an induction hypothesis for each member of such a list, so that a proof about trees needs no
second statement about lists of them.
-/

namespace StackLang

/-- Prove a property of all expressions from the expressions right below them. -/
@[elab_as_elim]
theorem Expr.induction {motive : Expr → Prop}
    (literal : ∀ value, motive (.literal value))
    (identifier : ∀ name, motive (.identifier name))
    (binary : ∀ operator left right, motive left → motive right →
      motive (.binary operator left right))
    (call : ∀ callee arguments, (∀ argument ∈ arguments, motive argument) →
      motive (.call callee arguments))
    (member : ∀ object name, motive object → motive (.member object name))
    (expr : Expr) : motive expr :=
  @Expr.rec motive (fun arguments => ∀ argument ∈ arguments, motive argument)
    literal identifier binary call member
    (fun _ absent => absurd absent List.not_mem_nil)
    (fun _ _ first others => List.forall_mem_cons.mpr ⟨first, others⟩) expr

/-- Prove a property of all statements from the statements right below them. A conditional without
an else branch is a case of its own, as its code is. -/
@[elab_as_elim]
theorem Stmt.induction {motive : Stmt → Prop}
    (expression : ∀ expr, motive (.expression expr))
    (declaration : ∀ type name initial, motive (.declaration type name initial))
    (assignment : ∀ target value, motive (.assignment target value))
    (returning : ∀ value, motive (.returning value))
    (block : ∀ body, (∀ statement ∈ body, motive statement) → motive (.block body))
    (oneWay : ∀ condition thenBranch, motive thenBranch →
      motive (.conditional condition thenBranch none))
    (twoWay : ∀ condition thenBranch elseBranch, motive thenBranch → motive elseBranch →
      motive (.conditional condition thenBranch (some elseBranch)))
    (statement : Stmt) : motive statement :=
  @Stmt.rec motive (fun body => ∀ statement ∈ body, motive statement)
    (fun elseBranch => ∀ statement ∈ elseBranch, motive statement)
    expression declaration assignment returning block
    (fun condition thenBranch elseBranch thenHolds elseHolds =>
      match elseBranch, elseHolds with
      | none, _ => oneWay condition thenBranch thenHolds
      | some other, holds => twoWay condition thenBranch other thenHolds (holds other rfl))
    (fun _ absent => absurd absent List.not_mem_nil)
    (fun _ _ first others => List.forall_mem_cons.mpr ⟨first, others⟩)
    (fun _ absent => nomatch absent)
    (fun _ holds _ same => Option.some.inj same ▸ holds) statement

end StackLang
