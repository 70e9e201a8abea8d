import StackLang.Proofs.TreeInduction
import StackLang.Semantics.Evaluation

/-!
# The meaning of programs on a bounded stack

`Semantics.Bounded` evaluates trees as `Semantics` does and also counts the values that wait on an
operand stack: `height` is their number, and no more than `limit` may wait. The two agree up to the
point where the bound is hit (`evalProgram_cuts`), so the bound can only cut an evaluation short.
-/

namespace StackLang.Semantics

theorem lift_ok_bind {α β : Type} (value : α) (next : α → Evaluation β) :
    lift (.ok value) >>= next = next value := rfl

theorem lift_error_bind {α β : Type} (cause : RunError) (next : α → Evaluation β) :
    lift (.error cause) >>= next = throw { cause } := rfl

/-- The value that a call has when its body ends in the given way. -/
def Flow.value : Flow → Option Value
  | .onward => none
  | .returned value => value

namespace Bounded

/-- Go on if a stack with `height` values on it may hold one more. -/
def hold (limit height : Nat) : Evaluation Unit :=
  lift (if limit ≤ height then .error (.stackOverflow limit) else .ok ())

/-- What carries out a call above a given number of waiting values. -/
abbrev Callee := Nat → Semantics.Callee

mutual

/-- The value of an expression above `height` waiting values. -/
def evalExpr (limit : Nat) (invoke : Callee) : Expr → Nat → Evaluation Value
  | .literal value, height => do
    hold limit height
    return value.toValue
  | .identifier name, height => do
    let value ← lift ((← get).read name)
    hold limit height
    return value
  | .binary operator left right, height => do
    let leftValue ← evalExpr limit invoke left height
    let rightValue ← evalExpr limit invoke right (height + 1)
    match operator with
    | .evaluated operator => lift (operator.apply leftValue rightValue)
    | _ => pure .none
  | .call callee arguments, height => do
    let values ← evalExprs limit invoke arguments height
    return (← invoke height callee values).getD .none
  | .member object name, height => do
    let record ← lift (← evalExpr limit invoke object height).asStruct
    lift (Record.field record name)

/-- The values of expressions, each of which waits while the later ones are evaluated. -/
def evalExprs (limit : Nat) (invoke : Callee) : List Expr → Nat → Evaluation (List Value)
  | [], _ => pure []
  | expr :: rest, height => do
    let value ← evalExpr limit invoke expr height
    let values ← evalExprs limit invoke rest (height + 1)
    return value :: values

end

/-- Store a value that waits above `height` others at the end of a path. A struct around a field is
loaded above the value. -/
def assignPath (limit height : Nat) (root : String) (members : List String) (value : Value) :
    Evaluation Unit := do
  let store ← get
  let whole ← lift (if members.isEmpty then pure .none else store.read root)
  if members.isEmpty then pure () else hold limit (height + 1)
  let changed ← lift (whole.setPath members value)
  set (← lift (store.write root changed))

/-- Store a value that waits above `height` others in the variable or field of a target. -/
def assign (limit height : Nat) (target : Expr) (value : Value) : Evaluation Unit :=
  match target.path with
  | .error _ => pure ()
  | .ok (root, members) => assignPath limit height root members value

mutual

/-- The effect of a statement above `height` waiting values. -/
def evalStmt (types : StructTypes) (limit : Nat) (invoke : Callee) (height : Nat) :
    Stmt → Evaluation Flow
  | .expression expr => do
    let _ ← evalExpr limit invoke expr height
    return .onward
  | .declaration type name initial => do
    let value ←
      match initial with
      | some expr => evalExpr limit invoke expr height
      | none =>
        hold limit height
        pure ((types.defaultValue type).toOption.getD .none)
    modify fun store => store.define name value
    return .onward
  | .assignment target value => do
    assign limit height target (← evalExpr limit invoke value height)
    return .onward
  | .returning none => return .returned none
  | .returning (some expr) => do return .returned (some (← evalExpr limit invoke expr height))
  | .block body => evalStmts types limit invoke height body
  | .conditional condition thenBranch none => do
    if ← lift (← evalExpr limit invoke condition height).asCondition then
      evalStmt types limit invoke height thenBranch
    else return .onward
  | .conditional condition thenBranch (some elseBranch) => do
    if ← lift (← evalExpr limit invoke condition height).asCondition then
      evalStmt types limit invoke height thenBranch
    else evalStmt types limit invoke height elseBranch

/-- The effect of statements in order, up to the first that returns. -/
def evalStmts (types : StructTypes) (limit : Nat) (invoke : Callee) (height : Nat) :
    List Stmt → Evaluation Flow
  | [] => return .onward
  | statement :: rest => do
    match ← evalStmt types limit invoke height statement with
    | .onward => evalStmts types limit invoke height rest
    | .returned value => return .returned value

end

/-- Run a function body above `height` waiting values. -/
def runFunction (types : StructTypes) (limit : Nat) (invoke : Callee) (height : Nat)
    (function : FunctionDecl) (arguments : List Value) : Evaluation (Option Value) := do
  let caller ← get
  set { caller with locals := some (parameterBindings function.parameters arguments) }
  let flow ← inside function.name (evalStmts types limit invoke height function.body)
  modify fun store => { store with locals := caller.locals }
  match flow with
  | .onward => return none
  | .returned value => return value

/-- Carry out a call when `remaining` more calls may become active. -/
def invoke (functions : Bindings FunctionDecl) (types : StructTypes) (settings : Settings)
    (limit : Nat) : Nat → Callee
  | remaining, height, callee, arguments =>
    match functions.find? callee, remaining with
    | none, _ => throw { cause := .functionNotFound callee }
    | some _, 0 => throw { cause := .recursionTooDeep settings.maxCallDepth }
    | some function, remaining + 1 =>
      runFunction types limit (invoke functions types settings limit remaining) height function
        arguments

/-- Run the global statements and then the start function, each above an empty stack. -/
def evalProgram (program : Program) (types : StructTypes) (settings : Settings) (limit : Nat) :
    Evaluation (Option Value) := do
  let functions := program.functions
  let called := invoke functions types settings limit (settings.maxCallDepth - 1)
  match functions.find? entryPoint with
  | none => throw { cause := .mainNotFound }
  | some main =>
    let _ ← inside globalOwner (evalStmts types limit called 0 program.globalStatements)
    if settings.maxCallDepth = 0 then throw { cause := .recursionTooDeep 0 }
    else if main.arity ≠ 0 then throw { cause := .stackUnderflow }
    else runFunction types limit called 0 main []

/-- Running a function is executing its body over the bound parameters. -/
theorem runFunction_apply (types : StructTypes) (limit : Nat) (invoke : Callee) (height : Nat)
    (function : FunctionDecl) (arguments : List Value) (store : Store) :
    runFunction types limit invoke height function arguments store =
      match evalStmts types limit invoke height function.body
        { store with locals := some (parameterBindings function.parameters arguments) } with
      | .ok flow after => .ok flow.value { after with locals := store.locals }
      | .error fault after => .error ⟨fault.cause, function.name :: fault.active⟩ after := by
  have unfolded : runFunction types limit invoke height function arguments store =
      (inside function.name (evalStmts types limit invoke height function.body) >>= fun flow =>
        modify (fun after => { after with locals := store.locals }) >>= fun _ =>
          match flow with
          | .onward => pure none
          | .returned value => pure value)
        { store with locals := some (parameterBindings function.parameters arguments) } := rfl
  rw [unfolded]
  simp only [Bind.bind, EStateM.bind, inside]
  cases evalStmts types limit invoke height function.body
      { store with locals := some (parameterBindings function.parameters arguments) } with
  | error fault after => rfl
  | ok flow after => cases flow <;> rfl

/-- The evaluation of a program that has a start function. -/
theorem evalProgram_apply {program : Program} {main : FunctionDecl}
    (declared : program.functions.find? entryPoint = some main) (types : StructTypes)
    (settings : Settings) (limit : Nat) (store : Store) :
    evalProgram program types settings limit store =
      match evalStmts types limit
        (invoke program.functions types settings limit (settings.maxCallDepth - 1)) 0
        program.globalStatements store with
      | .error fault after => .error ⟨fault.cause, globalOwner :: fault.active⟩ after
      | .ok _ after =>
        if settings.maxCallDepth = 0 then .error { cause := .recursionTooDeep 0 } after
        else if main.arity ≠ 0 then .error { cause := .stackUnderflow } after
        else runFunction types limit
          (invoke program.functions types settings limit (settings.maxCallDepth - 1)) 0 main []
          after := by
  simp only [evalProgram, declared, Bind.bind, EStateM.bind, inside]
  cases evalStmts types limit
      (invoke program.functions types settings limit (settings.maxCallDepth - 1)) 0
      program.globalStatements store with
  | error fault after => rfl
  | ok flow after =>
    dsimp only
    split
    · rfl
    · split <;> rfl

/-- A bounded evaluation does what an unbounded one does, unless it stops for want of room. -/
def Cuts {α : Type} (limit : Nat) (bounded unbounded : Evaluation α) : Prop :=
  ∀ store, bounded store = unbounded store ∨
    ∃ active after, bounded store = .error ⟨.stackOverflow limit, active⟩ after

namespace Cuts

variable {α β : Type} {limit : Nat}

theorem refl (evaluation : Evaluation α) : Cuts limit evaluation evaluation :=
  fun _ => .inl rfl

theorem bind {bounded unbounded : Evaluation α} {boundedNext unboundedNext : α → Evaluation β}
    (first : Cuts limit bounded unbounded)
    (next : ∀ value, Cuts limit (boundedNext value) (unboundedNext value)) :
    Cuts limit (bounded >>= boundedNext) (unbounded >>= unboundedNext) := by
  intro store
  rcases first store with same | ⟨active, after, stopped⟩
  · simp only [Bind.bind, EStateM.bind, same]
    cases unbounded store with
    | ok value middle => exact next value middle
    | error fault after => exact .inl rfl
  · exact .inr ⟨active, after, by simp [Bind.bind, EStateM.bind, stopped]⟩

theorem bind_left {bounded unbounded : Evaluation α} (first : Cuts limit bounded unbounded)
    (next : α → Evaluation β) : Cuts limit (bounded >>= next) (unbounded >>= next) :=
  first.bind fun value => refl (next value)

/-- A check for room before an evaluation can only cut it short. -/
theorem hold_bind {bounded unbounded : Evaluation α} (later : Cuts limit bounded unbounded)
    (height : Nat) : Cuts limit (hold limit height >>= fun _ => bounded) unbounded := by
  by_cases full : limit ≤ height
  · intro store
    refine .inr ⟨[], store, ?_⟩
    rw [hold, if_pos full]
    rfl
  · have room : (hold limit height >>= fun _ => bounded) = bounded := by
      rw [hold, if_neg full]
      rfl
    rw [room]
    exact later

theorem bind_hold (evaluation : Evaluation α) (height : Nat) :
    Cuts limit (evaluation >>= fun value => hold limit height >>= fun _ => pure value)
      evaluation := by
  have held : Cuts limit (evaluation >>= fun value => hold limit height >>= fun _ => pure value)
      (evaluation >>= pure) :=
    (refl evaluation).bind fun value => (refl (pure value)).hold_bind height
  rwa [bind_pure] at held

theorem inside {bounded unbounded : Evaluation α} (function : String)
    (body : Cuts limit bounded unbounded) :
    Cuts limit (Semantics.inside function bounded) (Semantics.inside function unbounded) := by
  intro store
  rcases body store with same | ⟨active, after, stopped⟩
  · simp [Semantics.inside, same]
  · exact .inr ⟨function :: active, after, by simp [Semantics.inside, stopped]⟩

end Cuts

section Trees

variable {limit : Nat} {types : StructTypes} {invoke : Callee} {unbounded : Semantics.Callee}

theorem evalExprs_cuts {exprs : List Expr}
    (each : ∀ expr ∈ exprs, ∀ height,
      Cuts limit (evalExpr limit invoke expr height) (Semantics.evalExpr unbounded expr))
    (height : Nat) :
    Cuts limit (evalExprs limit invoke exprs height) (Semantics.evalExprs unbounded exprs) := by
  induction exprs generalizing height with
  | nil => exact .refl _
  | cons expr rest inductionHypothesis =>
    obtain ⟨exprEach, restEach⟩ := List.forall_mem_cons.mp each
    refine (exprEach height).bind fun value => ?_
    exact (inductionHypothesis restEach (height + 1)).bind_left _

theorem assign_cuts (height : Nat) (target : Expr) (value : Value) :
    Cuts limit (assign limit height target value) (Semantics.assign target value) := by
  cases path : target.path with
  | error node =>
    simp only [assign, Semantics.assign, path]
    exact .refl _
  | ok parts =>
    obtain ⟨root, members⟩ := parts
    simp only [assign, assignPath, Semantics.assign, path]
    refine (Cuts.refl get).bind fun store => ?_
    refine (Cuts.refl (lift _)).bind fun whole => ?_
    by_cases direct : members.isEmpty = true
    · simp only [direct, if_true]
      exact .refl _
    · simp only [direct]
      exact (Cuts.refl _).hold_bind (height + 1)

theorem evalStmts_cuts_of_each {body : List Stmt} {height : Nat}
    (each : ∀ statement ∈ body,
      Cuts limit (evalStmt types limit invoke height statement)
        (Semantics.evalStmt types unbounded statement)) :
    Cuts limit (evalStmts types limit invoke height body)
      (Semantics.evalStmts types unbounded body) := by
  induction body with
  | nil => exact .refl _
  | cons statement rest inductionHypothesis =>
    obtain ⟨statementEach, restEach⟩ := List.forall_mem_cons.mp each
    refine statementEach.bind fun flow => ?_
    cases flow with
    | onward => exact inductionHypothesis restEach
    | returned value => exact .refl _

variable (calls : ∀ height callee arguments,
  Cuts limit (invoke height callee arguments) (unbounded callee arguments))

include calls

theorem evalExpr_cuts (expr : Expr) (height : Nat) :
    Cuts limit (evalExpr limit invoke expr height) (Semantics.evalExpr unbounded expr) := by
  induction expr using Expr.induction generalizing height with
  | literal value => exact (Cuts.refl _).hold_bind height
  | identifier name =>
    refine (Cuts.refl get).bind fun store => ?_
    exact .bind_hold (lift (store.read name)) height
  | binary operator left right leftHypothesis rightHypothesis =>
    refine (leftHypothesis height).bind fun leftValue => ?_
    exact (rightHypothesis (height + 1)).bind_left _
  | call callee arguments argumentHypothesis =>
    refine (evalExprs_cuts argumentHypothesis height).bind fun values => ?_
    exact (calls height callee values).bind_left _
  | member object name objectHypothesis => exact (objectHypothesis height).bind_left _

theorem evalStmt_cuts (statement : Stmt) (height : Nat) :
    Cuts limit (evalStmt types limit invoke height statement)
      (Semantics.evalStmt types unbounded statement) := by
  induction statement using Stmt.induction with
  | expression expr => exact (evalExpr_cuts calls expr height).bind_left _
  | declaration type name initial =>
    cases initial with
    | some expr => exact (evalExpr_cuts calls expr height).bind_left _
    | none => exact (Cuts.refl _).hold_bind height
  | assignment target value =>
    refine (evalExpr_cuts calls value height).bind fun result => ?_
    exact (assign_cuts height target result).bind_left _
  | returning value =>
    cases value with
    | none => exact .refl _
    | some expr => exact (evalExpr_cuts calls expr height).bind_left _
  | block body bodyHypothesis => exact evalStmts_cuts_of_each bodyHypothesis
  | oneWay condition thenBranch thenHypothesis =>
    refine (evalExpr_cuts calls condition height).bind fun value => ?_
    refine (Cuts.refl (lift value.asCondition)).bind fun holds => ?_
    cases holds with
    | true => exact thenHypothesis
    | false => exact .refl _
  | twoWay condition thenBranch elseBranch thenHypothesis elseHypothesis =>
    refine (evalExpr_cuts calls condition height).bind fun value => ?_
    refine (Cuts.refl (lift value.asCondition)).bind fun holds => ?_
    cases holds with
    | true => exact thenHypothesis
    | false => exact elseHypothesis

theorem evalStmts_cuts (body : List Stmt) (height : Nat) :
    Cuts limit (evalStmts types limit invoke height body)
      (Semantics.evalStmts types unbounded body) :=
  evalStmts_cuts_of_each fun statement _ => evalStmt_cuts calls statement height

theorem runFunction_cuts (function : FunctionDecl) (arguments : List Value) (height : Nat) :
    Cuts limit (runFunction types limit invoke height function arguments)
      (Semantics.runFunction types unbounded function arguments) := by
  refine (Cuts.refl get).bind fun caller => ?_
  refine (Cuts.refl (set _)).bind fun _ => ?_
  exact ((evalStmts_cuts calls function.body height).inside function.name).bind_left _

end Trees

theorem invoke_cuts {functions : Bindings FunctionDecl} {types : StructTypes}
    {settings : Settings} {limit : Nat} (remaining height : Nat) (callee : String)
    (arguments : List Value) :
    Cuts limit (invoke functions types settings limit remaining height callee arguments)
      (Semantics.invoke functions types settings remaining callee arguments) := by
  induction remaining generalizing height callee arguments with
  | zero =>
    unfold invoke Semantics.invoke
    cases functions.find? callee <;> exact .refl _
  | succ remaining inductionHypothesis =>
    unfold invoke Semantics.invoke
    cases functions.find? callee with
    | none => exact .refl _
    | some function => exact runFunction_cuts inductionHypothesis function arguments height

/-- A bounded stack can only cut the evaluation of a program short. -/
theorem evalProgram_cuts (program : Program) (types : StructTypes) (settings : Settings)
    (limit : Nat) :
    Cuts limit (evalProgram program types settings limit)
      (Semantics.evalProgram program types settings) := by
  unfold evalProgram Semantics.evalProgram
  dsimp only
  cases program.functions.find? entryPoint with
  | none => exact .refl _
  | some main =>
    have calls := @invoke_cuts program.functions types settings limit (settings.maxCallDepth - 1)
    dsimp only
    refine ((evalStmts_cuts calls program.globalStatements 0).inside globalOwner).bind fun _ => ?_
    split
    · exact .refl _
    · split
      · exact .refl _
      · exact runFunction_cuts calls main [] 0

end Bounded

end StackLang.Semantics
