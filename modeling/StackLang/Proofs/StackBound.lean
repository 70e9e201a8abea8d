import StackLang.Proofs.Safety
import StackLang.Proofs.StructResolution

/-!
# How much operand stack a program needs

`Program.need` is read off the tree of a program: it is the number of places on the operand stack
that one active call can fill at a time. If there are that many places for every call that may be
active, then the limit of the stack has no influence on what the program does
(`Semantics.Bounded.evalProgram_eq`), and so none of its runs overflows.
-/

namespace StackLang

mutual

/-- The number of places that an expression takes on the operand stack, without those that the
functions called in it take. -/
def Expr.need (functions : Bindings FunctionDecl) : Expr → Nat
  | .literal _ => 1
  | .identifier _ => 1
  | .binary _ left right => max (left.need functions) (1 + right.need functions)
  | .call callee arguments =>
    max (Expr.needAll functions arguments 0)
      (if (functions.find? callee).all FunctionDecl.returnsValue then 1 else 0)
  | .member object _ => object.need functions

/-- The number of places that the arguments of a call take from the given position on. Each waits
while the later ones are evaluated. -/
def Expr.needAll (functions : Bindings FunctionDecl) : List Expr → Nat → Nat
  | [], _ => 0
  | expr :: rest, position =>
    max (position + expr.need functions) (Expr.needAll functions rest (position + 1))

end

/-- Whether an expression is a field of a struct. -/
def Expr.isMember : Expr → Bool
  | .member _ _ => true
  | _ => false

mutual

/-- The number of places that a statement takes on the operand stack. The value of a declaration
waits there, and beside a value for a field waits the struct that it is put into. -/
def Stmt.need (functions : Bindings FunctionDecl) : Stmt → Nat
  | .expression expr => expr.need functions
  | .declaration _ _ initial => max 1 (initial.elim 0 (Expr.need functions))
  | .assignment target value =>
    max (if target.isMember then 2 else 0) (max (target.need functions) (value.need functions))
  | .returning value => value.elim 0 (Expr.need functions)
  | .block body => Stmt.needAll functions body
  | .conditional condition thenBranch none =>
    max (condition.need functions) (thenBranch.need functions)
  | .conditional condition thenBranch (some elseBranch) =>
    max (condition.need functions) (max (thenBranch.need functions) (elseBranch.need functions))

/-- The number of places that suffices for each of the given statements. -/
def Stmt.needAll (functions : Bindings FunctionDecl) : List Stmt → Nat
  | [] => 0
  | statement :: rest => max (statement.need functions) (Stmt.needAll functions rest)

end

/-- The number of places that suffices for each statement of a program, in its functions and
outside them. -/
def Program.need (program : Program) : Nat :=
  Stmt.needAll program.functions
    (program.functionDecls.flatMap FunctionDecl.body ++ program.globalStatements)

theorem Stmt.need_le_needAll {functions : Bindings FunctionDecl} {body : List Stmt}
    {statement : Stmt} (member : statement ∈ body) :
    statement.need functions ≤ Stmt.needAll functions body := by
  induction body with
  | nil => cases member
  | cons first rest inductionHypothesis =>
    rw [Stmt.needAll]
    rcases List.mem_cons.mp member with rfl | later
    · exact Nat.le_max_left _ _
    · exact Nat.le_trans (inductionHypothesis later) (Nat.le_max_right _ _)

namespace Program

variable {program : Program}

theorem mem_functionDecls_of_find? {name : String} {function : FunctionDecl}
    (found : program.functions.find? name = some function) :
    function ∈ program.functionDecls := by
  rw [functions, Bindings.find?_ofList_map] at found
  exact List.mem_reverse.mp (List.mem_of_find?_eq_some found)

theorem need_of_global {statement : Stmt} (member : statement ∈ program.globalStatements) :
    statement.need program.functions ≤ program.need :=
  Stmt.need_le_needAll (List.mem_append_right _ member)

theorem need_of_body {name : String} {function : FunctionDecl}
    (found : program.functions.find? name = some function) {statement : Stmt}
    (member : statement ∈ function.body) :
    statement.need program.functions ≤ program.need := by
  have declared := mem_functionDecls_of_find? found
  exact Stmt.need_le_needAll (List.mem_append_left _ (List.mem_flatMap.mpr ⟨_, declared, member⟩))

end Program

namespace Semantics.Bounded

theorem bind_eq_bind {α β : Type} {first other : Evaluation α} {next otherNext : α → Evaluation β}
    (same : first = other) (nextSame : ∀ value, next value = otherNext value) :
    first >>= next = other >>= otherNext := by
  subst same
  exact bind_congr nextSame

theorem hold_eq {limit height : Nat} (room : height < limit) : hold limit height = pure () := by
  rw [hold, if_neg (Nat.not_le.mpr room)]
  rfl

section Trees

variable {functions : Bindings FunctionDecl} {types : StructTypes} {limit ceiling height : Nat}
  {invoke : Callee} {unbounded : Semantics.Callee}

theorem evalExprs_eq {exprs : List Expr} {position : Nat}
    (each : ∀ expr ∈ exprs, ∀ height, height + expr.need functions ≤ ceiling →
      evalExpr limit invoke expr height = Semantics.evalExpr unbounded expr)
    (room : height + Expr.needAll functions exprs position ≤ ceiling) :
    evalExprs limit invoke exprs (height + position) = Semantics.evalExprs unbounded exprs := by
  induction exprs generalizing position with
  | nil => rfl
  | cons expr rest inductionHypothesis =>
    obtain ⟨exprEach, restEach⟩ := List.forall_mem_cons.mp each
    rw [Expr.needAll] at room
    have first := exprEach (height + position) (by omega)
    have later := @inductionHypothesis (position + 1) restEach (by omega)
    rw [evalExprs, Semantics.evalExprs, first, Nat.add_assoc, later]

theorem assign_eq {target : Expr} (room : target.isMember = true → height + 1 < limit)
    (value : Value) : assign limit height target value = Semantics.assign target value := by
  cases target with
  | identifier name => rfl
  | member object name =>
    have free := hold_eq (room rfl)
    unfold assign Semantics.assign
    cases (Expr.member object name).path with
    | error node => rfl
    | ok parts => simp only [assignPath, free, ite_self, pure_bind]
  | _ => rfl

theorem evalStmts_eq_of_each {body : List Stmt}
    (each : ∀ statement ∈ body,
      evalStmt types limit invoke height statement = Semantics.evalStmt types unbounded statement) :
    evalStmts types limit invoke height body = Semantics.evalStmts types unbounded body := by
  induction body with
  | nil => rfl
  | cons statement rest inductionHypothesis =>
    obtain ⟨statementEach, restEach⟩ := List.forall_mem_cons.mp each
    refine bind_eq_bind statementEach fun flow => ?_
    cases flow with
    | onward => exact inductionHypothesis restEach
    | returned value => rfl

variable (within : ceiling ≤ limit)
  (calls : ∀ height callee arguments, height ≤ ceiling →
    invoke height callee arguments = unbounded callee arguments)

include within calls

/-- With room for what an expression needs, and for the calls in it, the limit has no influence. -/
theorem evalExpr_eq {expr : Expr} (room : height + expr.need functions ≤ ceiling) :
    evalExpr limit invoke expr height = Semantics.evalExpr unbounded expr := by
  induction expr using Expr.induction generalizing height with
  | literal value =>
    rw [Expr.need] at room
    rw [evalExpr, Semantics.evalExpr, hold_eq (by omega), pure_bind]
  | identifier name =>
    rw [Expr.need] at room
    simp only [evalExpr, Semantics.evalExpr, hold_eq (show height < limit by omega), pure_bind,
      bind_pure]
  | binary operator left right leftHypothesis rightHypothesis =>
    rw [Expr.need] at room
    have leftSame := @leftHypothesis height (by omega)
    have rightSame := @rightHypothesis (height + 1) (by omega)
    refine bind_eq_bind leftSame fun leftValue => ?_
    exact bind_eq_bind rightSame fun rightValue => rfl
  | call callee arguments argumentHypothesis =>
    rw [Expr.need] at room
    have argumentRoom : height + Expr.needAll functions arguments 0 ≤ ceiling := by omega
    have argumentsSame : evalExprs limit invoke arguments height =
        Semantics.evalExprs unbounded arguments :=
      evalExprs_eq argumentHypothesis argumentRoom
    have callSame := fun values => calls height callee values (by omega)
    simp only [evalExpr, Semantics.evalExpr, argumentsSame, callSame]
  | member object name objectHypothesis =>
    rw [Expr.need] at room
    rw [evalExpr, Semantics.evalExpr, objectHypothesis room]

theorem evalStmt_eq {statement : Stmt} (room : height + statement.need functions ≤ ceiling) :
    evalStmt types limit invoke height statement =
      Semantics.evalStmt types unbounded statement := by
  have same : ∀ {expr : Expr}, height + expr.need functions ≤ ceiling →
      evalExpr limit invoke expr height = Semantics.evalExpr unbounded expr :=
    evalExpr_eq within calls
  induction statement using Stmt.induction with
  | expression expr =>
    rw [Stmt.need] at room
    rw [evalStmt, Semantics.evalStmt, same room]
  | declaration type name initial =>
    rw [Stmt.need] at room
    cases initial with
    | none =>
      have free : height < limit := by omega
      simp only [evalStmt, Semantics.evalStmt, hold_eq free, pure_bind]
    | some expr =>
      rw [Option.elim_some] at room
      have exprSame := same (show height + expr.need functions ≤ _ by omega)
      simp only [evalStmt, Semantics.evalStmt, exprSame]
  | assignment target value =>
    rw [Stmt.need] at room
    have stored : ∀ result, assign limit height target result = Semantics.assign target result := by
      apply assign_eq
      intro isMember
      rw [if_pos isMember] at room
      omega
    have valueSame := same (show height + value.need functions ≤ _ by omega)
    simp only [evalStmt, Semantics.evalStmt, valueSame, stored]
  | returning value =>
    cases value with
    | none => rfl
    | some expr =>
      rw [Stmt.need, Option.elim_some] at room
      rw [evalStmt, Semantics.evalStmt, same room]
  | block body bodyHypothesis =>
    rw [Stmt.need] at room
    rw [evalStmt, Semantics.evalStmt]
    apply evalStmts_eq_of_each
    intro statement member
    have least := @Stmt.need_le_needAll functions _ _ member
    exact bodyHypothesis statement member (by omega)
  | oneWay condition thenBranch thenHypothesis =>
    rw [Stmt.need] at room
    have conditionSame := same (show height + condition.need functions ≤ _ by omega)
    rw [evalStmt, Semantics.evalStmt, conditionSame, thenHypothesis (by omega)]
  | twoWay condition thenBranch elseBranch thenHypothesis elseHypothesis =>
    rw [Stmt.need] at room
    have conditionSame := same (show height + condition.need functions ≤ _ by omega)
    rw [evalStmt, Semantics.evalStmt, conditionSame, thenHypothesis (by omega),
      elseHypothesis (by omega)]

theorem evalStmts_eq {body : List Stmt}
    (room : ∀ statement ∈ body, height + statement.need functions ≤ ceiling) :
    evalStmts types limit invoke height body = Semantics.evalStmts types unbounded body :=
  evalStmts_eq_of_each fun statement member => evalStmt_eq within calls (room statement member)

theorem runFunction_eq {function : FunctionDecl}
    (room : ∀ statement ∈ function.body, height + statement.need functions ≤ ceiling)
    (arguments : List Value) :
    runFunction types limit invoke height function arguments =
      Semantics.runFunction types unbounded function arguments := by
  have bodySame : inside function.name (evalStmts types limit invoke height function.body) =
      inside function.name (Semantics.evalStmts types unbounded function.body) :=
    congrArg (inside function.name) (evalStmts_eq within calls room)
  refine bind_congr fun caller => ?_
  refine bind_congr fun _ => ?_
  exact bind_eq_bind bodySame fun flow => rfl

end Trees

variable {program : Program} {types : StructTypes} {settings : Settings} {limit : Nat}

/-- A call that begins above values which leave room for it and for all calls that can still become
active in it is not influenced by the limit. -/
theorem invoke_eq {remaining height : Nat} (room : height + remaining * program.need ≤ limit)
    (callee : String) (arguments : List Value) :
    invoke program.functions types settings limit remaining height callee arguments =
      Semantics.invoke program.functions types settings remaining callee arguments := by
  -- A body puts no more than `program.need` values above `height`, and its calls begin there.
  induction remaining generalizing height callee arguments with
  | zero =>
    unfold invoke Semantics.invoke
    cases program.functions.find? callee <;> rfl
  | succ remaining inductionHypothesis =>
    rw [Nat.succ_mul] at room
    unfold invoke Semantics.invoke
    cases found : program.functions.find? callee with
    | none => rfl
    | some function =>
      have bodyRoom : ∀ statement ∈ function.body,
          height + statement.need program.functions ≤ height + program.need := by
        intro statement member
        exact Nat.add_le_add_left (Program.need_of_body found member) height
      refine runFunction_eq (by omega) ?_ bodyRoom arguments
      intro above callee arguments bounded
      apply inductionHypothesis
      omega

/-- With room for every call that may be active, a program is evaluated as if there were no
limit. -/
theorem evalProgram_eq (enough : max 1 settings.maxCallDepth * program.need ≤ limit) :
    evalProgram program types settings limit = Semantics.evalProgram program types settings := by
  have room : program.need + (settings.maxCallDepth - 1) * program.need ≤ limit := by
    cases depth : settings.maxCallDepth with
    | zero => simpa [depth] using enough
    | succ deeper =>
      rw [depth, Nat.max_eq_right (by omega), Nat.succ_mul] at enough
      rw [Nat.add_sub_cancel]
      omega
  have calls : ∀ height callee arguments, height ≤ program.need →
      invoke program.functions types settings limit (settings.maxCallDepth - 1) height callee
        arguments =
      Semantics.invoke program.functions types settings (settings.maxCallDepth - 1) callee
        arguments := by
    intro height callee arguments bounded
    apply invoke_eq
    omega
  have within : program.need ≤ limit := by omega
  cases found : program.functions.find? entryPoint with
  | none => simp only [evalProgram, Semantics.evalProgram, found]
  | some main =>
    have globalRoom : ∀ statement ∈ program.globalStatements,
        0 + statement.need program.functions ≤ program.need := by
      intro statement member
      rw [Nat.zero_add]
      exact Program.need_of_global member
    have mainRoom : ∀ statement ∈ main.body,
        0 + statement.need program.functions ≤ program.need := by
      intro statement member
      rw [Nat.zero_add]
      exact Program.need_of_body found member
    simp only [evalProgram, Semantics.evalProgram, found,
      evalStmts_eq within calls globalRoom, runFunction_eq within calls mainRoom]

theorem overflow_names_limit {fault : Fault} {after : Store} {named : Nat}
    (failed : evalProgram program types settings limit {} = .error fault after)
    (overflow : fault.cause = .stackOverflow named) : named = limit := by
  rcases evalProgram_error failed with arises | missing | ⟨underflow, _⟩
  · rw [overflow] at arises
    exact arises
  · rw [overflow] at missing
    cases missing
  · rw [overflow] at underflow
    cases underflow

theorem evalProgram_not_overflow (enough : max 1 settings.maxCallDepth * program.need ≤ limit)
    {fault : Fault} {after : Store}
    (failed : evalProgram program types settings limit {} = .error fault after) (named : Nat) :
    fault.cause ≠ .stackOverflow named := by
  intro overflow
  -- A limit that is one greater makes no difference, but an overflow would name the greater one.
  have greater : evalProgram program types settings (limit + 1) {} = .error fault after := by
    rw [evalProgram_eq (Nat.le_succ_of_le enough), ← evalProgram_eq enough]
    exact failed
  have here := overflow_names_limit failed overflow
  have there := overflow_names_limit greater overflow
  omega

end Semantics.Bounded

namespace Machine

open Semantics

/-- If the operand stack has the places that the program needs for every call that may be active,
then its runs end and none of them overflows, whatever the machine has run before. -/
theorem needed_stack_never_overflows {program : Program} {compiled : CompiledProgram}
    (accepted : program.compile = .ok compiled) (addressable : compiled.Addressable)
    (settings : Settings) (prior : State)
    (limit_eq : prior.stack.limit = settings.maxStackSize)
    (enough : max 1 settings.maxCallDepth * program.need ≤ settings.maxStackSize) :
    (∃ ending, ∀ fuel, stepBound compiled settings.maxCallDepth ≤ fuel →
      execute compiled settings fuel prior = some ending) ∧
    ∀ fuel ending, execute compiled settings fuel prior = some ending →
      ∀ limit, ending.outcome ≠ .error (.stackOverflow limit) := by
  obtain ⟨types, placed⟩ := Program.placed_of_compile accepted
  let session : Session :=
    ⟨program, types, compiled, settings, settings.maxStackSize, placed, addressable⟩
  obtain ⟨ending, ended, concludes⟩ := @session.execute_concludes prior limit_eq
  refine ⟨⟨ending, ended⟩, ?_⟩
  intro fuel other executed limit overflow
  cases execute_unique (ended _ (Nat.le_refl _)) executed
  obtain ⟨active, after, failed⟩ := concludes.of_error overflow
  exact Bounded.evalProgram_not_overflow enough failed limit rfl

/-- A program that adds up the numbers below its argument while the sums wait for their right
operands. -/
def descent : Program where
  items := [
    .function {
      name := "descend"
      returnType := "Int"
      parameters := [⟨"Int", "n"⟩]
      body := [
        .conditional (.binary (.evaluated .eq) (.identifier "n") (.literal (.int 0)))
          (.returning (some (.identifier "n"))) none,
        .returning (some (.binary (.evaluated .add) (.identifier "n") (.call "descend"
          [.binary (.evaluated .sub) (.identifier "n") (.literal (.int 1))])))] },
    .function {
      name := "main"
      returnType := "Int"
      parameters := []
      body := [.returning (some (.call "descend" [.literal (.int 9)]))] }]

/-- Settings with three places on the operand stack for each of sixteen calls. -/
def roomy : Settings where
  maxCallDepth := 16
  maxStackSize := 48

/-- Three places for each call are what `descent` needs. -/
theorem descent_never_overflows :
    ∃ compiled, descent.compile = .ok compiled ∧ compiled.Addressable ∧ descent.need = 3 ∧
      (∃ ending, ∀ fuel, stepBound compiled 16 ≤ fuel →
        execute compiled roomy fuel (.initial roomy) = some ending) ∧
      ∀ fuel ending, execute compiled roomy fuel (.initial roomy) = some ending →
        ∀ limit, ending.outcome ≠ .error (.stackOverflow limit) := by
  have accepted : descent.compile = .ok _ := rfl
  have need_eq : descent.need = 3 := rfl
  have enough : max 1 roomy.maxCallDepth * descent.need ≤ roomy.maxStackSize := by
    rw [need_eq]
    decide
  have safe := needed_stack_never_overflows accepted (by decide) roomy (.initial roomy) rfl enough
  exact ⟨_, accepted, by decide, need_eq, safe⟩

end Machine

end StackLang
