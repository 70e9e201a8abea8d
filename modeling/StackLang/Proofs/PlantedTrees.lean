import StackLang.Proofs.OutlineLabels
import StackLang.Proofs.TreeInduction

/-!
# Trees planted as forests

The trees of a program are planted in the forests that outlines show. An expression is one node,
with its operands below it. A statement is one node or, if it has a second branch, two, so it can be
told what belongs to it only if no second branch follows. Under this condition what is planted can
be read off the forest again (`Expr.forest_inj`, `Stmt.forest_inj`), since every label begins with
the form of its tree, and the outline of the forest is the outline of what is planted in it
(`Expr.outline_forest`, `Stmt.outline_forest`).
-/

namespace StackLang

open Text

namespace Expr

/-- What stands after its form on the line of an expression. -/
def details : Expr → String
  | .literal value => value.text
  | .identifier name => name
  | .binary operator _ _ => operator.symbol
  | .call callee _ => callee
  | .member _ name => "." ++ name

/-- The text on the line of an expression. -/
def label (expr : Expr) : String :=
  headed expr.form (some expr.details)

/-- The expressions right below an expression. -/
def operands : Expr → List Expr
  | .literal _ => []
  | .identifier _ => []
  | .binary _ left right => [left, right]
  | .call _ arguments => arguments
  | .member object _ => [object]

mutual

/-- The nodes below the node of an expression. -/
def undergrowth : Expr → Forest
  | .literal _ => .none
  | .identifier _ => .none
  | .binary _ left right =>
    .node left.label left.undergrowth (.node right.label right.undergrowth .none)
  | .call _ arguments => undergrowthAll arguments
  | .member object _ => .node object.label object.undergrowth .none

/-- The nodes of expressions side by side. -/
def undergrowthAll : List Expr → Forest
  | [] => .none
  | expr :: rest => .node expr.label expr.undergrowth (undergrowthAll rest)

end

/-- An expression planted before a forest. -/
def forest (expr : Expr) (beside : Forest) : Forest :=
  .node expr.label expr.undergrowth beside

mutual

/-- Whether all names in an expression are plain and no literal is a floating-point number. -/
def legible : Expr → Bool
  | .literal value => value.isExact
  | .identifier name => isPlainName name
  | .binary _ left right => left.legible && right.legible
  | .call callee arguments => isPlainName callee && legibleAll arguments
  | .member object name => object.legible && isPlainName name

/-- Whether all of the expressions are legible. -/
def legibleAll : List Expr → Bool
  | [] => true
  | expr :: rest => expr.legible && legibleAll rest

end

/-- Prove a property of all expressions from their operands. -/
@[elab_as_elim]
theorem operandInduction {motive : Expr → Prop}
    (step : ∀ expr, (∀ operand ∈ expr.operands, motive operand) → motive expr) (expr : Expr) :
    motive expr := by
  induction expr using Expr.induction with
  | literal value => exact step _ nofun
  | identifier name => exact step _ nofun
  | binary operator left right leftHolds rightHolds =>
    exact step _ (List.forall_mem_cons.mpr ⟨leftHolds, List.forall_mem_singleton.mpr rightHolds⟩)
  | call callee arguments each => exact step _ each
  | member object name holds => exact step _ (List.forall_mem_singleton.mpr holds)

theorem undergrowth_eq (expr : Expr) : expr.undergrowth = expr.operands.foldr forest .none := by
  have all : ∀ exprs : List Expr, undergrowthAll exprs = exprs.foldr forest .none := by
    intro exprs
    induction exprs with
    | nil => rfl
    | cons expr rest inductionHypothesis =>
      rw [undergrowthAll, inductionHypothesis]
      rfl
  cases expr with
  | call callee arguments => exact all arguments
  | _ => rfl

theorem outline_eq (depth : Nat) (expr : Expr) : expr.outline depth =
    ⟨depth, expr.label⟩ :: expr.operands.flatMap (outline (depth + 1)) := by
  have all : ∀ exprs : List Expr,
      outlineAll (depth + 1) exprs = exprs.flatMap (outline (depth + 1)) := by
    intro exprs
    induction exprs with
    | nil => rfl
    | cons expr rest inductionHypothesis =>
      rw [outlineAll, inductionHypothesis, List.flatMap_cons]
  cases expr with
  | literal value =>
    rw [outline, label, headed]
    rfl
  | identifier name =>
    rw [outline, label, headed]
    rfl
  | binary operator left right =>
    rw [outline, operands, List.flatMap_cons, List.flatMap_singleton, label, headed]
    rfl
  | call callee arguments =>
    rw [outline, all, label, headed]
    rfl
  | member object name =>
    rw [outline, operands, List.flatMap_singleton, label, headed, details,
      ← String.append_assoc]
    rfl

theorem legible_operands {expr operand : Expr} (legible : expr.legible = true)
    (member : operand ∈ expr.operands) : operand.legible = true := by
  have all : ∀ exprs : List Expr, legibleAll exprs = exprs.all Expr.legible := by
    intro exprs
    induction exprs with
    | nil => rfl
    | cons expr rest inductionHypothesis => rw [legibleAll, inductionHypothesis, List.all_cons]
  cases expr with
  | literal value => nomatch member
  | identifier name => nomatch member
  | binary operator left right =>
    obtain ⟨leftLegible, rightLegible⟩ := Bool.and_eq_true_iff.mp legible
    rcases List.mem_cons.mp member with rfl | last
    · exact leftLegible
    · exact List.mem_singleton.mp last ▸ rightLegible
  | call callee arguments =>
    obtain ⟨_, each⟩ := Bool.and_eq_true_iff.mp legible
    rw [all] at each
    exact List.all_eq_true.mp each operand member
  | member object name =>
    obtain ⟨objectLegible, _⟩ := Bool.and_eq_true_iff.mp legible
    exact List.mem_singleton.mp member ▸ objectLegible

variable {left right expr : Expr} {beside beside' : Forest}

theorem outline_forest (depth : Nat) (expr : Expr) (beside : Forest) :
    (expr.forest beside).outline depth = expr.outline depth ++ beside.outline depth := by
  induction expr using operandInduction generalizing depth beside with
  | step expr inductionHypothesis =>
    rw [forest, Forest.outline, undergrowth_eq, outline_eq,
      Forest.outline_plantAll fun operand member => inductionHypothesis operand member (depth + 1)]
    rfl

theorem isForm_form (expr : Expr) : isForm expr.form = true := by
  cases expr <;> simp only [form] <;> decide

theorem isLabel_label (legible : expr.legible = true) : IsLabel expr.label := by
  refine isLabel_headed expr.isForm_form ?_
  rintro _ ⟨⟩
  cases expr with
  | literal value => exact Literal.newline_notMem_text legible
  | identifier name => exact notMem_plainName legible rfl
  | binary operator left right => exact operator.newline_notMem_symbol
  | call callee arguments => exact notMem_plainName (Bool.and_eq_true_iff.mp legible).1 rfl
  | member object name =>
    rw [details, String.toList_append, List.mem_append, not_or]
    exact ⟨by decide, notMem_plainName (Bool.and_eq_true_iff.mp legible).2 rfl⟩

theorem labelled_forest (legible : expr.legible = true) (labelled : beside.Labelled) :
    (expr.forest beside).Labelled := by
  induction expr using operandInduction generalizing beside with
  | step expr inductionHypothesis =>
    refine ⟨isLabel_label legible, ?_, labelled⟩
    rw [undergrowth_eq]
    exact Forest.labelled_plantAll fun operand member _ =>
      inductionHypothesis operand member (legible_operands legible member)

theorem plants_forest : Forest.Plants forest := by
  intro expr beside
  refine ⟨expr.label, rfl, headed_ne_else expr.isForm_form ?_⟩
  cases expr <;> simp [form]

theorem eq_of_label_eq (legible : left.legible = true) (legible' : right.legible = true)
    (labels : left.label = right.label) (operands : left.operands = right.operands) :
    left = right := by
  obtain ⟨sameForm, same⟩ := headed_inj left.isForm_form right.isForm_form labels
  have sameDetails := Option.some.inj same
  cases left with
  | literal value =>
    cases right with
    | literal value' => rw [Literal.text_inj legible legible' sameDetails]
    | _ => simp [form] at sameForm
  | identifier name =>
    cases right with
    | identifier name' => exact congrArg Expr.identifier sameDetails
    | _ => simp [form] at sameForm
  | binary operator first second =>
    cases right with
    | binary operator' first' second' =>
      cases operands
      rw [BinaryOp.symbol_inj sameDetails]
    | _ => simp [form] at sameForm
  | call callee arguments =>
    cases right with
    | call callee' arguments' =>
      cases operands
      exact congrArg (Expr.call · arguments) sameDetails
    | _ => simp [form] at sameForm
  | member object name =>
    cases right with
    | member object' name' =>
      cases operands
      exact congrArg (Expr.member object) ((String.append_right_inj _).mp sameDetails)
    | _ => simp [form] at sameForm

/-- An expression can be read off a forest that begins with it. -/
theorem forest_inj (legible : left.legible = true) (legible' : right.legible = true)
    (same : left.forest beside = right.forest beside') : left = right ∧ beside = beside' := by
  induction left using operandInduction generalizing right beside beside' with
  | step left inductionHypothesis =>
    obtain ⟨labels, below, rfl⟩ := Forest.node.inj same
    rw [undergrowth_eq, undergrowth_eq] at below
    have operands := Forest.plantAll_inj plants_forest (fun operand member other member' _ _ _ _ =>
      inductionHypothesis operand member (legible_operands legible member)
        (legible_operands legible' member')) below
    exact ⟨eq_of_label_eq legible legible' labels operands, rfl⟩

theorem labelled_option {expr : Option Expr} (legible : expr.all Expr.legible = true) :
    (expr.elim .none (forest · .none)).Labelled := by
  cases expr with
  | none => exact Forest.labelled_none
  | some expr => exact labelled_forest legible Forest.labelled_none

theorem option_inj {left right : Option Expr} (legible : left.all Expr.legible = true)
    (legible' : right.all Expr.legible = true)
    (same : left.elim .none (forest · .none) = right.elim .none (forest · .none)) :
    left = right := by
  cases left with
  | none =>
    cases right with
    | none => rfl
    | some other => nomatch same
  | some expr =>
    cases right with
    | none => nomatch same
    | some other => exact congrArg some (forest_inj legible legible' same).1

end Expr

namespace Stmt

/-- What stands after its form on the first line of a statement. -/
def details? : Stmt → Option String
  | .declaration type name _ => some (TypedName.text ⟨type, name⟩)
  | _ => none

/-- The text on the first line of a statement. -/
def label (statement : Stmt) : String :=
  headed statement.form statement.details?

mutual

/-- A statement planted before a forest. A second branch has a node of its own, beside the node of
the conditional. -/
def forest : Stmt → Forest → Forest
  | .expression expr, beside => .node "ExpressionStatement" (expr.forest .none) beside
  | .declaration type name initial, beside =>
    .node (headed "VariableDeclaration" (some (TypedName.text ⟨type, name⟩)))
      (initial.elim .none (Expr.forest · .none)) beside
  | .assignment target value, beside =>
    .node "Assignment" (target.forest (value.forest .none)) beside
  | .returning value, beside => .node "Return" (value.elim .none (Expr.forest · .none)) beside
  | .block body, beside => .node "Block" (forestAll body) beside
  | .conditional condition thenBranch none, beside =>
    .node "If" (condition.forest (thenBranch.forest .none)) beside
  | .conditional condition thenBranch (some elseBranch), beside =>
    .node "If" (condition.forest (thenBranch.forest .none))
      (.node "Else" (elseBranch.forest .none) beside)

/-- Statements planted side by side. -/
def forestAll : List Stmt → Forest
  | [] => .none
  | statement :: rest => statement.forest (forestAll rest)

end

mutual

/-- Whether all names in a statement are plain and no literal is a floating-point number. -/
def legible : Stmt → Bool
  | .expression expr => expr.legible
  | .declaration type name initial =>
    TypedName.legible ⟨type, name⟩ && initial.all Expr.legible
  | .assignment target value => target.legible && value.legible
  | .returning value => value.all Expr.legible
  | .block body => legibleAll body
  | .conditional condition thenBranch none => condition.legible && thenBranch.legible
  | .conditional condition thenBranch (some elseBranch) =>
    condition.legible && thenBranch.legible && elseBranch.legible

/-- Whether all of the statements are legible. -/
def legibleAll : List Stmt → Bool
  | [] => true
  | statement :: rest => statement.legible && legibleAll rest

end

theorem forestAll_eq (statements : List Stmt) :
    forestAll statements = statements.foldr forest .none := by
  induction statements with
  | nil => rfl
  | cons statement rest inductionHypothesis => rw [forestAll, inductionHypothesis, List.foldr_cons]

theorem outlineAll_eq (depth : Nat) (statements : List Stmt) :
    outlineAll depth statements = statements.flatMap (outline depth) := by
  induction statements with
  | nil => rfl
  | cons statement rest inductionHypothesis =>
    rw [outlineAll, inductionHypothesis, List.flatMap_cons]

theorem legibleAll_iff {statements : List Stmt} : legibleAll statements = true ↔
    ∀ statement ∈ statements, statement.legible = true := by
  induction statements with
  | nil => exact iff_of_true rfl nofun
  | cons statement rest inductionHypothesis =>
    rw [legibleAll, Bool.and_eq_true, inductionHypothesis, List.forall_mem_cons]

theorem forest_conditional (condition : Expr) (thenBranch : Stmt) (elseBranch : Option Stmt)
    (beside : Forest) : (conditional condition thenBranch elseBranch).forest beside =
      .node "If" (condition.forest (thenBranch.forest .none))
        (elseBranch.elim beside fun other => .node "Else" (other.forest .none) beside) := by
  cases elseBranch <;> rfl

theorem legible_conditional {condition : Expr} {thenBranch : Stmt} {elseBranch : Option Stmt}
    (legible : (conditional condition thenBranch elseBranch).legible = true) :
    condition.legible = true ∧ thenBranch.legible = true ∧
      ∀ other ∈ elseBranch, other.legible = true := by
  cases elseBranch with
  | none =>
    obtain ⟨conditionLegible, thenLegible⟩ := Bool.and_eq_true_iff.mp legible
    exact ⟨conditionLegible, thenLegible, nofun⟩
  | some other =>
    obtain ⟨firstLegible, elseLegible⟩ := Bool.and_eq_true_iff.mp legible
    obtain ⟨conditionLegible, thenLegible⟩ := Bool.and_eq_true_iff.mp firstLegible
    refine ⟨conditionLegible, thenLegible, ?_⟩
    rintro _ ⟨⟩
    exact elseLegible

variable {left right statement : Stmt} {beside beside' : Forest}

theorem outline_forest (depth : Nat) (statement : Stmt) (beside : Forest) :
    (statement.forest beside).outline depth = statement.outline depth ++ beside.outline depth := by
  have optional : ∀ (depth : Nat) (expr : Option Expr),
      (expr.elim .none (Expr.forest · .none)).outline depth = Expr.outlineOption depth expr := by
    intro depth expr
    cases expr with
    | none => rfl
    | some expr => exact (Expr.outline_forest _ _ _).trans (List.append_nil _)
  induction statement using Stmt.induction generalizing depth beside with
  | expression expr => simp [forest, Forest.outline, outline, Expr.outline_forest]
  | declaration type name initial =>
    rw [forest, Forest.outline, optional, outline, headed, TypedName.text, ← String.append_assoc,
      ← String.append_assoc]
    rfl
  | assignment target value => simp [forest, Forest.outline, outline, Expr.outline_forest]
  | returning value => simp [forest, Forest.outline, outline, optional]
  | block body each =>
    rw [forest, Forest.outline, outline, forestAll_eq, outlineAll_eq,
      Forest.outline_plantAll fun statement member => each statement member (depth + 1)]
    rfl
  | oneWay condition thenBranch thenHypothesis =>
    simp [forest, Forest.outline, outline, Expr.outline_forest, thenHypothesis]
  | twoWay condition thenBranch elseBranch thenHypothesis elseHypothesis =>
    simp [forest, Forest.outline, outline, Expr.outline_forest, thenHypothesis, elseHypothesis]

theorem isForm_form (statement : Stmt) : isForm statement.form = true := by
  cases statement <;> simp only [form] <;> decide

theorem head?_forest (statement : Stmt) (beside : Forest) :
    (statement.forest beside).head? = some statement.label := by
  cases statement with
  | conditional condition thenBranch elseBranch => cases elseBranch <;> rfl
  | _ => rfl

theorem form_ne (statement : Stmt) : statement.form ≠ "Else" ∧
    statement.form ≠ "FunctionDeclaration" ∧ statement.form ≠ "StructDeclaration" := by
  cases statement <;> simp [form]

theorem plants_forest : Forest.Plants forest := by
  intro statement beside
  exact ⟨statement.label, head?_forest statement beside,
    headed_ne_else statement.isForm_form statement.form_ne.1⟩

theorem form_eq_of_forest_eq (same : left.forest beside = right.forest beside') :
    left.form = right.form :=
  form_unique left.isForm_form right.isForm_form (head?_forest left beside)
    (same ▸ head?_forest right beside')

theorem labelled_forest (legible : statement.legible = true) (labelled : beside.Labelled) :
    (statement.forest beside).Labelled := by
  induction statement using Stmt.induction generalizing beside with
  | expression expr =>
    exact ⟨isLabel_form (by decide), Expr.labelled_forest legible Forest.labelled_none, labelled⟩
  | declaration type name initial =>
    obtain ⟨names, initialLegible⟩ := Bool.and_eq_true_iff.mp legible
    refine ⟨isLabel_headed (by decide) ?_, Expr.labelled_option initialLegible, labelled⟩
    rintro _ ⟨⟩
    exact TypedName.notMem_text names (by decide) rfl
  | assignment target value =>
    obtain ⟨targetLegible, valueLegible⟩ := Bool.and_eq_true_iff.mp legible
    exact ⟨isLabel_form (by decide),
      Expr.labelled_forest targetLegible (Expr.labelled_forest valueLegible Forest.labelled_none),
      labelled⟩
  | returning value =>
    exact ⟨isLabel_form (by decide), Expr.labelled_option legible, labelled⟩
  | block body each =>
    refine ⟨isLabel_form (by decide), ?_, labelled⟩
    rw [forestAll_eq]
    exact Forest.labelled_plantAll fun statement member _ =>
      each statement member (legibleAll_iff.mp legible statement member)
  | oneWay condition thenBranch thenHypothesis =>
    obtain ⟨conditionLegible, thenLegible⟩ := Bool.and_eq_true_iff.mp legible
    exact ⟨isLabel_form (by decide),
      Expr.labelled_forest conditionLegible (thenHypothesis thenLegible Forest.labelled_none),
      labelled⟩
  | twoWay condition thenBranch elseBranch thenHypothesis elseHypothesis =>
    obtain ⟨conditionLegible, thenLegible, elseLegible⟩ := legible_conditional legible
    exact ⟨isLabel_form (by decide),
      Expr.labelled_forest conditionLegible (thenHypothesis thenLegible Forest.labelled_none),
      isLabel_form (by decide), elseHypothesis (elseLegible _ rfl) Forest.labelled_none, labelled⟩

/-- A statement can be read off a forest that begins with it, if no second branch follows. -/
theorem forest_inj (legible : left.legible = true) (legible' : right.legible = true)
    (noElse : beside.NoElse) (noElse' : beside'.NoElse)
    (same : left.forest beside = right.forest beside') : left = right ∧ beside = beside' := by
  have sameForm := form_eq_of_forest_eq same
  induction left using Stmt.induction generalizing right beside beside' with
  | expression expr =>
    cases right with
    | expression expr' =>
      obtain ⟨_, below, rfl⟩ := Forest.node.inj same
      rw [(Expr.forest_inj legible legible' below).1]
      exact ⟨rfl, rfl⟩
    | _ => simp [form] at sameForm
  | declaration type name initial =>
    cases right with
    | declaration type' name' initial' =>
      obtain ⟨names, initialLegible⟩ := Bool.and_eq_true_iff.mp legible
      obtain ⟨names', initialLegible'⟩ := Bool.and_eq_true_iff.mp legible'
      obtain ⟨labels, below, rfl⟩ := Forest.node.inj same
      have texts := Option.some.inj (headed_inj (by decide) (by decide) labels).2
      cases TypedName.text_inj names names' texts
      rw [Expr.option_inj initialLegible initialLegible' below]
      exact ⟨rfl, rfl⟩
    | _ => simp [form] at sameForm
  | assignment target value =>
    cases right with
    | assignment target' value' =>
      obtain ⟨targetLegible, valueLegible⟩ := Bool.and_eq_true_iff.mp legible
      obtain ⟨targetLegible', valueLegible'⟩ := Bool.and_eq_true_iff.mp legible'
      obtain ⟨_, below, rfl⟩ := Forest.node.inj same
      obtain ⟨rfl, rest⟩ := Expr.forest_inj targetLegible targetLegible' below
      rw [(Expr.forest_inj valueLegible valueLegible' rest).1]
      exact ⟨rfl, rfl⟩
    | _ => simp [form] at sameForm
  | returning value =>
    cases right with
    | returning value' =>
      obtain ⟨_, below, rfl⟩ := Forest.node.inj same
      rw [Expr.option_inj legible legible' below]
      exact ⟨rfl, rfl⟩
    | _ => simp [form] at sameForm
  | block body each =>
    cases right with
    | block body' =>
      obtain ⟨_, below, rfl⟩ := Forest.node.inj same
      rw [forestAll_eq, forestAll_eq] at below
      have bodies := Forest.plantAll_inj plants_forest (fun statement member other member' _ _
        noElse noElse' same => each statement member (legibleAll_iff.mp legible statement member)
          (legibleAll_iff.mp legible' other member') noElse noElse' same
          (form_eq_of_forest_eq same)) below
      rw [bodies]
      exact ⟨rfl, rfl⟩
    | _ => simp [form] at sameForm
  | oneWay condition thenBranch thenHypothesis =>
    cases right with
    | conditional condition' thenBranch' elseBranch' =>
      obtain ⟨conditionLegible, thenLegible⟩ := Bool.and_eq_true_iff.mp legible
      obtain ⟨conditionLegible', thenLegible', _⟩ := legible_conditional legible'
      rw [forest_conditional, forest_conditional] at same
      obtain ⟨_, below, rest⟩ := Forest.node.inj same
      obtain ⟨rfl, branches⟩ := Expr.forest_inj conditionLegible conditionLegible' below
      obtain ⟨rfl, _⟩ := thenHypothesis thenLegible thenLegible' Forest.noElse_none
        Forest.noElse_none branches (form_eq_of_forest_eq branches)
      cases elseBranch' with
      | none => exact ⟨rfl, rest⟩
      -- The second branch of the one conditional would have to follow the other one.
      | some elseBranch' => exact absurd (congrArg Forest.head? rest) noElse
    | _ => simp [form] at sameForm
  | twoWay condition thenBranch elseBranch thenHypothesis elseHypothesis =>
    cases right with
    | conditional condition' thenBranch' elseBranch' =>
      obtain ⟨conditionLegible, thenLegible, elseLegible⟩ := legible_conditional legible
      obtain ⟨conditionLegible', thenLegible', elseLegible'⟩ := legible_conditional legible'
      rw [forest_conditional, forest_conditional] at same
      obtain ⟨_, below, rest⟩ := Forest.node.inj same
      obtain ⟨rfl, branches⟩ := Expr.forest_inj conditionLegible conditionLegible' below
      obtain ⟨rfl, _⟩ := thenHypothesis thenLegible thenLegible' Forest.noElse_none
        Forest.noElse_none branches (form_eq_of_forest_eq branches)
      cases elseBranch' with
      | none => exact absurd (congrArg Forest.head? rest.symm) noElse'
      | some elseBranch' =>
        obtain ⟨_, elses, rfl⟩ := Forest.node.inj rest
        obtain ⟨rfl, _⟩ := elseHypothesis (elseLegible _ rfl) (elseLegible' _ rfl)
          Forest.noElse_none Forest.noElse_none elses (form_eq_of_forest_eq elses)
        exact ⟨rfl, rfl⟩
    | _ => simp [form] at sameForm

end Stmt

end StackLang
