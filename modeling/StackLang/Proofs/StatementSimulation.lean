import StackLang.Proofs.ExpressionSimulation

/-!
# The machine walks as statements are executed

Between statements only what lay below the call is on the operand stack. The code of a legal
statement ends behind itself or returns from the call, as its evaluation does (`Activation.Ended`),
and only a statement that need not return can end behind itself. The code of a body always returns,
with a value exactly if its function is declared to have one.
-/

namespace StackLang.Machine.Activation

open Semantics Semantics.Bounded

variable {session : Session} (activation : Activation session) (enclosing : Option FunctionDecl)

/-- How the code of a statement ends: behind itself, if it need not return, or in a return that
agrees with the declaration of the function. -/
def Ended (returns : Bool) (address : Nat) : Flow → Store → State → Prop
  | .onward, store, state =>
    returns = false ∧ activation.Shows address activation.below store state
  | .returned value, store, state =>
    value.isSome = enclosing.any FunctionDecl.returnsValue ∧ activation.Returned value store state

/-- What an activation does at the code of a statement. -/
def Executes (statement : Stmt) : Prop :=
  ∀ (address : Nat) (store : Store) (state : State),
    activation.Holds address (statement.code (session.context enclosing)) →
    address + (statement.code (session.context enclosing)).length < session.compiled.code.size →
    activation.Shows address activation.below store state →
    activation.Simulates (statement.code (session.context enclosing)).length state
      (evalStmt session.types session.limit (session.callee activation.remaining)
        activation.below.length statement) store
      (activation.Ended enclosing statement.returns
        (address + (statement.code (session.context enclosing)).length))

variable {activation enclosing}

theorem Ended.weaken {returns other : Bool} {address : Nat} {flow : Flow} {store : Store}
    {state : State} (ended : activation.Ended enclosing returns address flow store state)
    (need : returns = false → other = false) :
    activation.Ended enclosing other address flow store state := by
  cases flow with
  | onward => exact ⟨need ended.1, ended.2⟩
  | returned value => exact ended

/-- Statements are executed in order, up to the first that returns. -/
theorem executesAll {body : List Stmt}
    (each : ∀ statement ∈ body, activation.Executes enclosing statement) (address : Nat)
    (store : Store) (state : State)
    (holds : activation.Holds address
      (Stmt.codeAll (session.context enclosing) body))
    (inside : address + (Stmt.codeAll (session.context enclosing) body).length <
      session.compiled.code.size)
    (shown : activation.Shows address activation.below store state) :
    activation.Simulates (Stmt.codeAll (session.context enclosing) body).length state
      (evalStmts session.types session.limit (session.callee activation.remaining)
        activation.below.length body) store
      (activation.Ended enclosing (Stmt.anyReturns body)
        (address + (Stmt.codeAll (session.context enclosing) body).length)) := by
  induction body generalizing address store state with
  | nil => exact .done ⟨rfl, shown⟩
  | cons statement rest inductionHypothesis =>
    obtain ⟨statementEach, restEach⟩ := List.forall_mem_cons.mp each
    have length : (Stmt.codeAll (session.context enclosing) (statement :: rest)).length =
        (statement.code (session.context enclosing)).length +
          (Stmt.codeAll (session.context enclosing) rest).length := by
      rw [Stmt.codeAll, List.length_append]
    rw [length, ← Nat.add_assoc] at inside
    rw [Stmt.codeAll] at holds
    rw [length]
    refine (statementEach address store state holds.left (by omega) shown).bind ?_
    intro flow after between ended
    cases flow with
    | onward =>
      obtain ⟨goesOn, shownBetween⟩ := ended
      refine (inductionHypothesis restEach _ after between holds.right inside
        shownBetween).mono (Nat.le_refl _) ?_
      intro flow later next ended
      rw [Stmt.anyReturns, goesOn, Bool.false_or, ← Nat.add_assoc]
      exact ended
    | returned value =>
      exact .done ended

section Statements

variable (calls : session.CallsSimulated activation.remaining)

include calls

/-- An expression leaves its value, which is dropped. -/
theorem executes_expression {expr : Expr} (legal : expr.Legal (session.context enclosing)) :
    activation.Executes enclosing (.expression expr) := by
  intro address store state holds inside shown
  rw [Stmt.code, legal.hasValue, if_pos rfl] at holds ⊢
  rw [List.length_append, ← Nat.add_assoc]
  refine (computes_of_legal calls legal address _ store state holds.left shown).bind ?_
  intro value after between shownValue
  refine (shownValue.drop shown.above holds.right.head).mono (Nat.le_refl _) ?_
  rintro _ later next ⟨rfl, shownNext⟩
  exact ⟨rfl, shownNext⟩

/-- A call for its effect leaves a value, which is dropped, or none. -/
theorem executes_effect {callee : String} {arguments : List Expr}
    (takes : (session.context none).Takes callee arguments.length)
    (legal : ∀ argument ∈ arguments, argument.Legal (session.context enclosing)) :
    activation.Executes enclosing (.expression (.call callee arguments)) := by
  intro address store state holds inside shown
  rw [Stmt.code, Expr.hasValue] at holds ⊢
  rw [List.length_append, ← Nat.add_assoc]
  have computes : ∀ argument ∈ arguments,
      activation.Computes ((session.context enclosing).tag "expr") argument :=
    fun argument member => computes_of_legal calls (legal argument member)
  have called := computesCall calls takes computes address _ store state holds.left shown
  have unfolded : evalStmt session.types session.limit (session.callee activation.remaining)
      activation.below.length (.expression (.call callee arguments)) =
        (evalExprs session.limit (session.callee activation.remaining) arguments
          activation.below.length >>=
            session.callee activation.remaining activation.below.length callee) >>=
          fun _ => pure .onward := by
    simp only [Bounded.evalStmt, Bounded.evalExpr, bind_assoc, pure_bind]
  rw [unfolded]
  refine called.bind ?_
  rintro result after between ⟨isSome, shownResult⟩
  cases result with
  | some value =>
    have hasValue : (session.context enclosing).callHasValue callee = true := isSome.symm
    rw [hasValue, if_pos rfl] at holds ⊢
    refine (shownResult.drop shown.above holds.right.head).mono (Nat.le_refl _) ?_
    rintro _ later next ⟨rfl, shownNext⟩
    exact ⟨rfl, shownNext⟩
  | none =>
    have noValue : (session.context enclosing).callHasValue callee = false := isSome.symm
    rw [noValue]
    exact .done ⟨rfl, shownResult⟩

/-- A declaration leaves the first value of its variable and defines it. -/
theorem executes_declaration {type : String} (name : String) {initial : Option Expr}
    {default : Value} (known : session.types.defaultValue type = .ok default)
    (legal : ∀ expr ∈ initial, expr.Legal (session.context enclosing)) :
    activation.Executes enclosing (.declaration type name initial) := by
  intro address store state holds inside shown
  rw [Stmt.code] at holds ⊢
  rw [List.length_append, ← Nat.add_assoc]
  have defined : ∀ (value : Value) (after : Store) (between : State),
      activation.Shows (address + (Stmt.initialCode (session.context enclosing) type
        ((session.context enclosing).tag "decl") initial).length) (value :: activation.below)
        after between →
      activation.Simulates 1 between (do
        modify fun store => store.define name value
        return Flow.onward) after
        (activation.Ended enclosing false (address + (Stmt.initialCode (session.context enclosing)
          type ((session.context enclosing).tag "decl") initial).length + 1)) := by
    intro value after between shownValue
    refine (shownValue.defineVariable shown.above holds.right.head).map ?_
    intro _ later next shownNext
    exact ⟨rfl, shownNext⟩
  cases initial with
  | some expr =>
    have initialLegal := legal expr rfl
    exact (computes_of_legal calls initialLegal address _ store state holds.left shown).bind defined
  | none =>
    have loaded : Stmt.initialCode (session.context enclosing) type
        ((session.context enclosing).tag "decl") none =
          [⟨if default.isKind .struct then .newStruct else .loadConst, default,
            (session.context enclosing).tag "decl"⟩] := by
      simp [Stmt.initialCode, Session.context, known]
    rw [loaded] at holds defined ⊢
    have constant := shown.loadConstant holds.head (by split <;> simp)
    refine (constant.bind defined).congr ?_
    simp only [Bounded.evalStmt, known, Except.toOption, Option.getD_some, bind_assoc]

/-- An assignment leaves its value and stores it at the end of the path. -/
theorem executes_assignment {target value : Expr} {root : String} {members : List String}
    (path : target.path = .ok (root, members)) (legal : value.Legal (session.context enclosing)) :
    activation.Executes enclosing (.assignment target value) := by
  intro address store state holds inside shown
  have storeCode : Stmt.storeCode target ((session.context enclosing).tag "assign") =
      Instruction.storePath root ((session.context enclosing).tag "assign") members.reverse := by
    simp only [Stmt.storeCode, path]
  rw [Stmt.code, storeCode] at holds ⊢
  rw [List.length_append, ← Nat.add_assoc]
  refine (computes_of_legal calls legal address _ store state holds.left shown).bind ?_
  intro result after between shownResult
  have assigned : assign session.limit activation.below.length target result =
      assignPath session.limit activation.below.length root members.reverse.reverse result := by
    simp only [Bounded.assign, path, List.reverse_reverse]
  rw [assigned]
  refine (shownResult.storePath shown.above holds.right).map ?_
  intro _ later next shownNext
  exact ⟨rfl, shownNext⟩

/-- A return leaves its value and ends the call. -/
theorem executes_returning {function : FunctionDecl} {value : Option Expr}
    (isEnclosing : enclosing = some function) (agrees : value.isSome = function.returnsValue)
    (legal : ∀ expr ∈ value, expr.Legal (session.context enclosing)) :
    activation.Executes enclosing (.returning value) := by
  intro address store state holds inside shown
  cases value with
  | none =>
    rw [Stmt.code] at holds ⊢
    refine (shown.returnVoid holds.head).mono (Nat.le_refl _) ?_
    rintro _ after next ⟨rfl, returned⟩
    refine ⟨?_, returned⟩
    rw [isEnclosing]
    exact agrees
  | some expr =>
    rw [Stmt.code] at holds ⊢
    rw [List.length_append, ← Nat.add_assoc]
    have valueLegal := legal expr rfl
    refine (computes_of_legal calls valueLegal address _ store state holds.left shown).bind ?_
    intro result after between shownResult
    refine (shownResult.returnValue holds.right.head).mono (Nat.le_refl _) ?_
    rintro _ later next ⟨rfl, returned⟩
    refine ⟨?_, returned⟩
    rw [isEnclosing]
    exact agrees

/-- A condition decides whether the code behind it is carried out or passed over. -/
theorem decides {condition : Expr} {tag : String} {count address : Nat} {store : Store}
    {state : State} {rest : List Instruction}
    (legal : condition.Legal (session.context enclosing))
    (holds : activation.Holds address
      (condition.code tag ++ .jumpOver .jumpIfFalse count tag :: rest))
    (inside : address + (condition.code tag).length + 1 + count < session.compiled.code.size)
    (shown : activation.Shows address activation.below store state) :
    activation.Simulates ((condition.code tag).length + 1) state
      (evalExpr session.limit (session.callee activation.remaining) condition
        activation.below.length >>= fun value => lift value.asCondition) store
      fun truth after next => activation.Shows
        (if truth then address + (condition.code tag).length + 1
          else address + (condition.code tag).length + 1 + count) activation.below after next := by
  refine (computes_of_legal calls legal address _ store state holds.left shown).bind ?_
  intro value after between shownValue
  exact shownValue.jumpIfFalse shown.above holds.right.head inside

/-- A conditional without an else branch passes over its branch if its condition is false. -/
theorem executes_oneWay {condition : Expr} {thenBranch : Stmt}
    (conditionLegal : condition.Legal (session.context enclosing))
    (thenExecutes : activation.Executes enclosing thenBranch) :
    activation.Executes enclosing (.conditional condition thenBranch none) := by
  intro address store state holds inside shown
  have length : (Stmt.code (session.context enclosing)
      (.conditional condition thenBranch none)).length =
        (condition.code ((session.context enclosing).tag "if")).length + 1 +
          (thenBranch.code (session.context enclosing)).length := by
    simp only [Stmt.code, List.length_append, List.length_cons]
    omega
  rw [length, ← Nat.add_assoc, ← Nat.add_assoc] at inside
  rw [length, ← Nat.add_assoc, ← Nat.add_assoc]
  rw [Stmt.code] at holds
  refine Simulates.congr ((decides calls conditionLegal holds inside shown).bind ?_)
    (congrFun (bind_assoc _ _ _).symm store)
  intro truth after between shownBranch
  cases truth with
  | true =>
    refine (thenExecutes _ after between holds.right.tail inside shownBranch).mono
      (Nat.le_refl _) ?_
    exact fun flow later next ended => ended.weaken fun _ => rfl
  | false => exact .done ⟨rfl, shownBranch⟩

/-- A conditional with an else branch carries out one of its branches. Behind the first stands a
jump over the second. -/
theorem executes_twoWay {condition : Expr} {thenBranch elseBranch : Stmt}
    (conditionLegal : condition.Legal (session.context enclosing))
    (thenExecutes : activation.Executes enclosing thenBranch)
    (elseExecutes : activation.Executes enclosing elseBranch) :
    activation.Executes enclosing (.conditional condition thenBranch (some elseBranch)) := by
  intro address store state holds inside shown
  have length : (Stmt.code (session.context enclosing)
      (.conditional condition thenBranch (some elseBranch))).length =
        (condition.code ((session.context enclosing).tag "if")).length + 1 +
          ((thenBranch.code (session.context enclosing)).length + 1 +
            (elseBranch.code (session.context enclosing)).length) := by
    simp only [Stmt.code, List.length_append, List.length_cons]
    omega
  rw [length, ← Nat.add_assoc, ← Nat.add_assoc, ← Nat.add_assoc, ← Nat.add_assoc] at inside
  rw [length, ← Nat.add_assoc address, ← Nat.add_assoc address, ← Nat.add_assoc (address + _ + 1),
    ← Nat.add_assoc (address + _ + 1)]
  rw [Stmt.code, List.append_assoc, List.cons_append] at holds
  have branches := holds.right.tail
  refine Simulates.congr ((decides calls conditionLegal holds (by omega) shown).bind ?_)
    (congrFun (bind_assoc _ _ _).symm store)
  intro truth after between shownBranch
  cases truth with
  | true =>
    have first := thenExecutes _ after between branches.left (by omega) shownBranch
    have jumped : activation.Simulates _ between _ after (activation.Ended enclosing
        (thenBranch.returns && elseBranch.returns) _) :=
      first.andThen fun flow later next ended => by
        cases flow with
        | onward =>
          refine (ended.2.jump branches.right.head inside).mono (Nat.le_refl 1) ?_
          rintro _ final reached ⟨rfl, shownEnd⟩
          exact ⟨by rw [ended.1, Bool.false_and], shownEnd⟩
        | returned value => exact .done ended
    exact jumped.mono (Nat.le_add_right _ _) fun _ _ _ ended => ended
  | false =>
    have second := elseExecutes _ after between branches.right.tail inside shownBranch
    refine second.mono (Nat.le_add_left _ _) ?_
    intro flow later next ended
    refine ended.weaken fun goesOn => ?_
    rw [Stmt.returns, goesOn, Bool.and_false]

/-- The code of a legal statement executes it. -/
theorem executes_of_legal {statement : Stmt}
    (legal : statement.Legal (session.context enclosing)) :
    activation.Executes enclosing statement := by
  induction legal with
  | expression legal => exact executes_expression calls legal
  | effect takes argumentsLegal => exact executes_effect calls takes argumentsLegal
  | declaration name known legal => exact executes_declaration calls name known legal
  | assignment path legal => exact executes_assignment calls path legal
  | returning isEnclosing agrees legal => exact executes_returning calls isEnclosing agrees legal
  | block _ executes =>
    intro address store state holds inside shown
    exact executesAll executes address store state holds inside shown
  | oneWay conditionLegal _ thenExecutes =>
    exact executes_oneWay calls conditionLegal thenExecutes
  | twoWay conditionLegal _ _ thenExecutes elseExecutes =>
    exact executes_twoWay calls conditionLegal thenExecutes elseExecutes

/-- The code of a body returns from the call, with a value exactly if its function is declared to
have one. -/
theorem executesBody {body : List Stmt} {address : Nat} {store : Store} {state : State}
    (legal : ∀ statement ∈ body, statement.Legal (session.context enclosing))
    (returns : enclosing.any FunctionDecl.returnsValue = true → Stmt.anyReturns body = true)
    (holds : activation.Holds address ((session.context enclosing).bodyCode body))
    (shown : activation.Shows address activation.below store state) :
    activation.Simulates session.compiled.code.size state
      (evalStmts session.types session.limit (session.callee activation.remaining)
        activation.below.length body) store
      fun flow after next => flow.value.isSome = enclosing.any FunctionDecl.returnsValue ∧
        activation.Returned flow.value after next := by
  have fits : address + ((session.context enclosing).bodyCode body).length ≤
      session.compiled.code.size := holds.holds.length_le (by simp [BodyContext.bodyCode])
  rw [BodyContext.bodyCode, List.length_append, List.length_singleton] at fits
  have executes : ∀ statement ∈ body, activation.Executes enclosing statement :=
    fun statement member => executes_of_legal calls (legal statement member)
  have ended := executesAll executes address store state holds.left (by omega) shown
  have returned : activation.Simulates _ state _ store fun (flow : Flow) after next =>
      flow.value.isSome = enclosing.any FunctionDecl.returnsValue ∧
        activation.Returned flow.value after next :=
    ended.andThen fun flow after between ended => by
      cases flow with
      | onward =>
        refine (ended.2.returnVoid holds.right.head).mono (Nat.le_refl 1) ?_
        rintro _ later next ⟨rfl, returned⟩
        refine ⟨?_, returned⟩
        -- A function with a value would have returned before the end of its body.
        cases valued : enclosing.any FunctionDecl.returnsValue with
        | false => rfl
        | true =>
          have mustReturn := returns valued
          rw [ended.1] at mustReturn
          cases mustReturn
      | returned value => exact .done ended
  exact returned.mono (by omega) fun _ _ _ reached => reached

end Statements

end StackLang.Machine.Activation
