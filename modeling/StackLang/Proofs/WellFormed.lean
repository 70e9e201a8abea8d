import StackLang.Proofs.StructResolution

/-!
# Well-formed programs

The rules of the language, said of the tree alone. A rule is about one expression or one statement
and looks no further than the declarations of the program; a body is well formed if all its parts,
at any depth, keep the rules. `Expr.legal_iff` and `Stmt.legal_iff` show that these are the trees
that can stand in a body.
-/

namespace StackLang

namespace Expr

/-- One expression is another or stands in it. -/
inductive Part : Expr → Expr → Prop where
  | self (expr : Expr) : Part expr expr
  | left {part left : Expr} (operator : BinaryOp) (right : Expr) (inside : Part part left) :
      Part part (.binary operator left right)
  | right {part right : Expr} (operator : BinaryOp) (left : Expr) (inside : Part part right) :
      Part part (.binary operator left right)
  | argument {part argument : Expr} {arguments : List Expr} (callee : String)
      (member : argument ∈ arguments) (inside : Part part argument) :
      Part part (.call callee arguments)
  | object {part object : Expr} (name : String) (inside : Part part object) :
      Part part (.member object name)

/-- The rule for an expression whose value is needed: its operator has a meaning on values; if it
calls a declared function, the function has a value and takes that many arguments. -/
def Proper (program : Program) : Expr → Prop
  | .binary operator _ _ => ∃ evaluated, operator = .evaluated evaluated
  | .call callee arguments =>
    ∀ function, program.function? callee = some function →
      function.returnsValue = true ∧ function.arity = arguments.length
  | .literal _ | .identifier _ | .member _ _ => True

/-- A path leads through the chain of accesses that it names, and through no other expression. -/
theorem path_eq_ok_iff {expr : Expr} {root : String} {members : List String} :
    expr.path = .ok (root, members) ↔ expr = .chain root members := by
  constructor
  · intro found
    induction expr using Expr.induction generalizing root members with
    | identifier name =>
      cases found
      rfl
    | member object name objectHypothesis =>
      unfold path at found
      split at found
      · next inner outer objectPath =>
        cases found
        rw [objectHypothesis objectPath, chain_concat]
      · cases found
    | literal | binary | call => cases found
  · rintro rfl
    induction members using List.reverseRecOn with
    | nil => rfl
    | append_singleton outer name inductionHypothesis =>
      rw [chain_concat, path, inductionHypothesis]

end Expr

namespace Stmt

/-- One statement is another or stands in it. -/
inductive Part : Stmt → Stmt → Prop where
  | self (statement : Stmt) : Part statement statement
  | block {part statement : Stmt} {body : List Stmt} (member : statement ∈ body)
      (inside : Part part statement) : Part part (.block body)
  | thenBranch {part thenBranch : Stmt} (condition : Expr) (elseBranch : Option Stmt)
      (inside : Part part thenBranch) : Part part (.conditional condition thenBranch elseBranch)
  | elseBranch {part elseBranch : Stmt} (condition : Expr) (thenBranch : Stmt)
      (inside : Part part elseBranch) :
      Part part (.conditional condition thenBranch (some elseBranch))

/-- The expressions whose values a statement needs. A call that is a statement by itself is not
among them, but its arguments are. -/
def operands : Stmt → List Expr
  | .expression (.call _ arguments) => arguments
  | .expression expr => [expr]
  | .declaration _ _ initial => initial.toList
  | .assignment _ value => [value]
  | .returning value => value.toList
  | .block _ => []
  | .conditional condition _ _ => [condition]

/-- The rule for a statement by itself: the type of a variable is known, the target of an assignment
is a variable or a chain of members of one, a return stands in a function and has a value exactly if
the function does, and a call has as many arguments as a declared function takes. -/
def Proper (program : Program) (enclosing : Option FunctionDecl) : Stmt → Prop
  | .expression (.call callee arguments) =>
    ∀ function, program.function? callee = some function → function.arity = arguments.length
  | .declaration type _ _ => program.Resolves type
  | .assignment target _ => ∃ root members, target = .chain root members
  | .returning value =>
    ∃ function, enclosing = some function ∧ value.isSome = function.returnsValue
  | .expression _ | .block _ | .conditional _ _ _ => True

/-- Some way through a statement meets no return. -/
inductive Passable : Stmt → Prop where
  | expression (expr : Expr) : Passable (.expression expr)
  | declaration (type name : String) (initial : Option Expr) :
      Passable (.declaration type name initial)
  | assignment (target value : Expr) : Passable (.assignment target value)
  | block {body : List Stmt} (each : ∀ statement ∈ body, Passable statement) :
      Passable (.block body)
  | thenBranch {thenBranch : Stmt} (condition : Expr) (elseBranch : Option Stmt)
      (passable : Passable thenBranch) : Passable (.conditional condition thenBranch elseBranch)
  | elseBranch {elseBranch : Stmt} (condition : Expr) (thenBranch : Stmt)
      (passable : Passable elseBranch) :
      Passable (.conditional condition thenBranch (some elseBranch))
  | noElse (condition : Expr) (thenBranch : Stmt) :
      Passable (.conditional condition thenBranch none)

theorem anyReturns_eq_false_iff {body : List Stmt} :
    anyReturns body = false ↔ ∀ statement ∈ body, statement.returns = false := by
  induction body with
  | nil => simp [anyReturns]
  | cons statement rest inductionHypothesis => simp [anyReturns, inductionHypothesis]

/-- A statement always returns exactly if no way leads through it. -/
theorem returns_eq_false_iff {statement : Stmt} :
    statement.returns = false ↔ statement.Passable := by
  constructor
  · intro passes
    induction statement using Stmt.induction with
    | expression expr => exact .expression expr
    | declaration type name initial => exact .declaration type name initial
    | assignment target value => exact .assignment target value
    | returning value => simp [returns] at passes
    | block body bodyHypothesis =>
      rw [returns, anyReturns_eq_false_iff] at passes
      exact .block fun statement member => bodyHypothesis statement member (passes statement member)
    | oneWay condition thenBranch => exact .noElse condition thenBranch
    | twoWay condition thenBranch elseBranch thenHypothesis elseHypothesis =>
      rw [returns, Bool.and_eq_false_iff] at passes
      rcases passes with passes | passes
      · exact .thenBranch condition _ (thenHypothesis passes)
      · exact .elseBranch condition thenBranch (elseHypothesis passes)
  · intro passable
    induction passable with
    | expression | declaration | assignment | noElse => rfl
    | block _ inductionHypothesis =>
      rw [returns, anyReturns_eq_false_iff]
      exact inductionHypothesis
    | thenBranch condition elseBranch _ inductionHypothesis =>
      cases elseBranch with
      | none => rfl
      | some => simp [returns, inductionHypothesis]
    | elseBranch _ _ _ inductionHypothesis => simp [returns, inductionHypothesis]

end Stmt

/-- All parts of an expression keep the rule for a needed value. -/
def Expr.WellFormed (program : Program) (expr : Expr) : Prop :=
  ∀ part, Expr.Part part expr → part.Proper program

/-- All statements in a statement keep their rules, and so do the expressions in them. -/
def Stmt.WellFormed (program : Program) (enclosing : Option FunctionDecl) (statement : Stmt) :
    Prop :=
  ∀ part, Stmt.Part part statement →
    part.Proper program enclosing ∧ ∀ operand ∈ part.operands, operand.WellFormed program

/-- The types of a function are known, its statements are well formed, and no way leads through its
body without a return if it has a value. -/
structure FunctionDecl.WellFormed (program : Program) (function : FunctionDecl) : Prop where
  returnType : isVoid function.returnType = true ∨ program.Resolves function.returnType
  parameters : ∀ parameter ∈ function.parameters, program.Resolves parameter.type
  returns : isVoid function.returnType = false → ¬ (Stmt.block function.body).Passable
  body : ∀ statement ∈ function.body, statement.WellFormed program (some function)

/-- The structs, every function declaration, whether or not a later one has its name, and the global
statements keep the rules. -/
structure Program.WellFormed (program : Program) : Prop where
  structs : program.StructsResolve
  functions : ∀ function ∈ program.functionDecls, function.WellFormed program
  globals : ∀ statement ∈ program.globalStatements, statement.WellFormed program none

section Legality

variable {program : Program} {types : StructTypes} {enclosing : Option FunctionDecl}

theorem BodyContext.callHasValue_iff {context : BodyContext} {callee : String} :
    context.callHasValue callee = true ↔
      ∀ function, context.functions.find? callee = some function →
        function.returnsValue = true := by
  unfold BodyContext.callHasValue
  cases context.functions.find? callee <;> simp

/-- The expressions that can stand where a value is needed are the well-formed ones. -/
theorem Expr.legal_iff {expr : Expr} :
    expr.Legal ⟨program.functions, types, enclosing⟩ ↔ expr.WellFormed program := by
  constructor
  · intro legal
    induction legal with
    | literal | identifier =>
      rintro part ⟨⟩
      trivial
    | binary operator _ _ leftHypothesis rightHypothesis =>
      intro part inside
      cases inside with
      | self => exact ⟨operator, rfl⟩
      | left _ _ inside => exact leftHypothesis part inside
      | right _ _ inside => exact rightHypothesis part inside
    | call hasValue takes _ argumentHypothesis =>
      intro part inside
      cases inside with
      | self =>
        intro function declared
        exact ⟨BodyContext.callHasValue_iff.mp hasValue function declared,
          takes function declared⟩
      | argument _ member inside => exact argumentHypothesis _ member part inside
    | member name _ objectHypothesis =>
      intro part inside
      cases inside with
      | self => trivial
      | object _ inside => exact objectHypothesis part inside
  · intro wellFormed
    induction expr using Expr.induction with
    | literal value => exact .literal value
    | identifier name => exact .identifier name
    | binary operator left right leftHypothesis rightHypothesis =>
      obtain ⟨evaluated, rfl⟩ := wellFormed _ (.self _)
      exact .binary evaluated
        (leftHypothesis fun part inside => wellFormed part (.left _ _ inside))
        (rightHypothesis fun part inside => wellFormed part (.right _ _ inside))
    | call callee arguments argumentHypothesis =>
      have declared := wellFormed _ (.self _)
      refine .call (BodyContext.callHasValue_iff.mpr fun function found =>
        (declared function found).1) (fun function found => (declared function found).2) ?_
      intro argument member
      exact argumentHypothesis argument member fun part inside =>
        wellFormed part (.argument _ member inside)
    | member object name objectHypothesis =>
      exact .member name (objectHypothesis fun part inside => wellFormed part (.object _ inside))

namespace Stmt

/-- An expression whose value would be well formed can also be evaluated for its effect. -/
theorem proper_expression {expr : Expr} (wellFormed : expr.WellFormed program) :
    (Stmt.expression expr).Proper program enclosing ∧
      ∀ operand ∈ (Stmt.expression expr).operands, operand.WellFormed program := by
  cases expr with
  | call callee arguments =>
    refine ⟨fun function declared => (wellFormed _ (.self _) function declared).2, ?_⟩
    exact fun argument member part inside => wellFormed part (.argument _ member inside)
  | literal | identifier | binary | member =>
    exact ⟨trivial, List.forall_mem_singleton.mpr wellFormed⟩

theorem Legal.wellFormed (resolved : StructTypes.ofProgram program = .ok types)
    {statement : Stmt} (legal : statement.Legal ⟨program.functions, types, enclosing⟩) :
    statement.WellFormed program enclosing := by
  induction legal with
  | expression legal =>
    rintro part ⟨⟩
    exact proper_expression (Expr.legal_iff.mp legal)
  | effect takes argumentsLegal =>
    rintro part ⟨⟩
    exact ⟨takes, fun argument member => Expr.legal_iff.mp (argumentsLegal argument member)⟩
  | declaration name known legal =>
    rintro part ⟨⟩
    refine ⟨(StructTypes.defaultValue_ok_iff resolved _).mp ⟨_, known⟩, ?_⟩
    exact fun operand member => Expr.legal_iff.mp (legal operand (Option.mem_toList.mp member))
  | assignment path legal =>
    rintro part ⟨⟩
    exact ⟨⟨_, _, Expr.path_eq_ok_iff.mp path⟩,
      List.forall_mem_singleton.mpr (Expr.legal_iff.mp legal)⟩
  | returning inFunction agrees legal =>
    rintro part ⟨⟩
    refine ⟨⟨_, inFunction, agrees⟩, ?_⟩
    exact fun operand member => Expr.legal_iff.mp (legal operand (Option.mem_toList.mp member))
  | block _ bodyHypothesis =>
    intro part inside
    cases inside with
    | self => exact ⟨trivial, fun _ absent => absurd absent List.not_mem_nil⟩
    | block member inside => exact bodyHypothesis _ member part inside
  | oneWay conditionLegal _ thenHypothesis =>
    intro part inside
    cases inside with
    | self => exact ⟨trivial, List.forall_mem_singleton.mpr (Expr.legal_iff.mp conditionLegal)⟩
    | thenBranch _ _ inside => exact thenHypothesis part inside
  | twoWay conditionLegal _ _ thenHypothesis elseHypothesis =>
    intro part inside
    cases inside with
    | self => exact ⟨trivial, List.forall_mem_singleton.mpr (Expr.legal_iff.mp conditionLegal)⟩
    | thenBranch _ _ inside => exact thenHypothesis part inside
    | elseBranch _ _ inside => exact elseHypothesis part inside

theorem WellFormed.proper {statement : Stmt}
    (wellFormed : statement.WellFormed program enclosing) :
    statement.Proper program enclosing :=
  (wellFormed _ (.self _)).1

theorem WellFormed.legal_operands {statement : Stmt}
    (wellFormed : statement.WellFormed program enclosing) :
    ∀ operand ∈ statement.operands, operand.Legal ⟨program.functions, types, enclosing⟩ :=
  fun operand member => Expr.legal_iff.mpr ((wellFormed _ (.self _)).2 operand member)

theorem WellFormed.legal (resolved : StructTypes.ofProgram program = .ok types)
    {statement : Stmt} (wellFormed : statement.WellFormed program enclosing) :
    statement.Legal ⟨program.functions, types, enclosing⟩ := by
  induction statement using Stmt.induction with
  | expression expr =>
    cases expr with
    | call callee arguments => exact .effect wellFormed.proper wellFormed.legal_operands
    | literal | identifier | binary | member =>
      exact .expression (wellFormed.legal_operands _ List.mem_cons_self)
  | declaration type name initial =>
    obtain ⟨default, known⟩ := (StructTypes.defaultValue_ok_iff resolved type).mpr wellFormed.proper
    exact .declaration name known fun expr member =>
      wellFormed.legal_operands expr (Option.mem_toList.mpr member)
  | assignment target value =>
    obtain ⟨root, members, chained⟩ := wellFormed.proper
    exact .assignment (Expr.path_eq_ok_iff.mpr chained)
      (wellFormed.legal_operands _ List.mem_cons_self)
  | returning value =>
    obtain ⟨function, inFunction, agrees⟩ := wellFormed.proper
    exact .returning inFunction agrees fun expr member =>
      wellFormed.legal_operands expr (Option.mem_toList.mpr member)
  | block body bodyHypothesis =>
    refine .block fun statement member => bodyHypothesis statement member ?_
    exact fun part inside => wellFormed part (.block member inside)
  | oneWay condition thenBranch thenHypothesis =>
    refine .oneWay (wellFormed.legal_operands _ List.mem_cons_self) (thenHypothesis ?_)
    exact fun part inside => wellFormed part (.thenBranch _ _ inside)
  | twoWay condition thenBranch elseBranch thenHypothesis elseHypothesis =>
    refine .twoWay (wellFormed.legal_operands _ List.mem_cons_self) (thenHypothesis ?_)
      (elseHypothesis ?_)
    · exact fun part inside => wellFormed part (.thenBranch _ _ inside)
    · exact fun part inside => wellFormed part (.elseBranch _ _ inside)

/-- The statements that can stand in a body are the well-formed ones. -/
theorem legal_iff (resolved : StructTypes.ofProgram program = .ok types) {statement : Stmt} :
    statement.Legal ⟨program.functions, types, enclosing⟩ ↔
      statement.WellFormed program enclosing :=
  ⟨Legal.wellFormed resolved, WellFormed.legal resolved⟩

end Stmt

end Legality

end StackLang
