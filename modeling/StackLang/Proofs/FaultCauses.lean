import StackLang.Proofs.BoundedMeaning
import StackLang.Proofs.OperatorEligibility

/-!
# What can stop a program

`RunError.Arises` lists the causes that the statements of a program can stop with: those that depend
on its values and limits, and none that would blame its code. Every fault of an evaluation has such
a cause, and an overflow names the limit of the operand stack (`Semantics.Bounded.invoke_faults`,
`Semantics.Bounded.evalStmts_faults`).
-/

namespace StackLang

/-- The causes that a statement of a program can stop with. -/
def RunError.Arises (program : Program) : RunError → Prop
  | .undefinedVariable _ | .undefinedField _ | .unsupportedOperation _ _ _ | .divisionByZero
  | .stackOverflow _ | .recursionTooDeep _ => True
  | .typeMismatch expected _ => expected = .struct ∨ expected = .bool
  | .functionNotFound name => ∀ declaration ∈ program.functionDecls, declaration.name ≠ name
  | .invalidTypeName _ | .stackUnderflow | .mainNotFound | .invalidJumpTarget _
  | .programCounterOutOfRange _ | .unbalancedStack _ => False

/-- The causes that a statement of a program can stop with on an operand stack of the given
limit. -/
def RunError.ArisesOn (program : Program) (limit : Nat) : RunError → Prop
  | .stackOverflow named => named = limit
  | cause => cause.Arises program

theorem RunError.ArisesOn.arises {program : Program} {limit : Nat} {cause : RunError}
    (arises : cause.ArisesOn program limit) : cause.Arises program := by
  cases cause with
  | stackOverflow named => trivial
  | _ => exact arises

namespace Bindings

theorem find?_foldl_insert {α : Type} {entries : List (String × α)} {bindings : Bindings α}
    {name : String}
    (absent : (entries.foldl (fun bindings (name, content) => bindings.insert name content)
      bindings).find? name = none) :
    bindings.find? name = none ∧ ∀ entry ∈ entries, entry.1 ≠ name := by
  induction entries generalizing bindings with
  | nil => exact ⟨absent, fun _ member => absurd member List.not_mem_nil⟩
  | cons entry rest inductionHypothesis =>
    obtain ⟨before, others⟩ := inductionHypothesis absent
    rw [find?_insert] at before
    split at before
    · cases before
    · next different =>
      exact ⟨before, List.forall_mem_cons.mpr ⟨fun same => different same.symm, others⟩⟩

end Bindings

/-- A name that is not found is the name of no function. -/
theorem Program.undeclared_of_find? {program : Program} {name : String}
    (absent : program.functions.find? name = none) :
    ∀ declaration ∈ program.functionDecls, declaration.name ≠ name := by
  intro declaration member
  have others := (Bindings.find?_foldl_insert absent).2
  exact others (declaration.name, declaration) (List.mem_map_of_mem member)

namespace Operator

/-- An operator that cannot be applied has no meaning on its operands or divides by zero. -/
theorem apply_error {operator : Operator} {left right : Value} {cause : RunError}
    (failed : operator.apply left right = .error cause) :
    cause = .divisionByZero ∨ cause = .unsupportedOperation operator left.kind right.kind := by
  cases eligible : operator.canApply left right with
  | true => exact .inl ((apply_error_iff eligible).mp failed).1
  | false =>
    rw [apply_of_not_canApply eligible] at failed
    cases failed
    exact .inr rfl

end Operator

namespace Semantics

/-- The causes of all faults of an evaluation are allowed. -/
def FaultsOnly {α : Type} (allowed : RunError → Prop) (evaluation : Evaluation α) : Prop :=
  ∀ store fault after, evaluation store = .error fault after → allowed fault.cause

namespace FaultsOnly

variable {α β : Type} {allowed : RunError → Prop}

theorem ofPure (value : α) : FaultsOnly allowed (pure value) := by
  intro store fault after failed
  cases failed

theorem get : FaultsOnly allowed (get : Evaluation Store) := by
  intro store fault after failed
  cases failed

theorem set (store : Store) : FaultsOnly allowed (set store : Evaluation PUnit) := by
  intro before fault after failed
  cases failed

theorem modify (change : Store → Store) :
    FaultsOnly allowed (modify change : Evaluation PUnit) := by
  intro store fault after failed
  cases failed

theorem throw {cause : RunError} (holds : allowed cause) :
    FaultsOnly allowed (throw { cause } : Evaluation α) := by
  intro store fault after failed
  cases failed
  exact holds

theorem lift {result : Except RunError α}
    (errors : ∀ cause, result = .error cause → allowed cause) :
    FaultsOnly allowed (lift result) := by
  cases result with
  | ok value => exact ofPure value
  | error cause => exact throw (errors cause rfl)

theorem bind {evaluation : Evaluation α} {next : α → Evaluation β}
    (first : FaultsOnly allowed evaluation) (later : ∀ value, FaultsOnly allowed (next value)) :
    FaultsOnly allowed (evaluation >>= next) := by
  intro store fault after failed
  simp only [Bind.bind, EStateM.bind] at failed
  cases evaluated : evaluation store with
  | ok value between =>
    rw [evaluated] at failed
    exact later value between fault after failed
  | error earlier between =>
    rw [evaluated] at failed
    cases failed
    exact first store _ _ evaluated

theorem inside {evaluation : Evaluation α} (function : String)
    (body : FaultsOnly allowed evaluation) : FaultsOnly allowed (inside function evaluation) := by
  intro store fault after failed
  unfold Semantics.inside at failed
  cases evaluated : evaluation store with
  | ok value between =>
    rw [evaluated] at failed
    cases failed
  | error earlier between =>
    rw [evaluated] at failed
    cases failed
    exact body store earlier _ evaluated

end FaultsOnly

end Semantics

theorem Except.bind_error {ε α β : Type} {first : Except ε α} {next : α → Except ε β} {cause : ε}
    (failed : first >>= next = .error cause) :
    first = .error cause ∨ ∃ value, first = .ok value ∧ next value = .error cause := by
  cases first with
  | error other =>
    cases failed
    exact .inl rfl
  | ok value => exact .inr ⟨value, rfl, failed⟩

section Values

variable {program : Program} {limit : Nat} {cause : RunError}

theorem Value.asStruct_arises {value : Value} (failed : value.asStruct = .error cause) :
    cause.ArisesOn program limit := by
  cases value <;> cases failed <;> exact .inl rfl

theorem Value.asCondition_arises {value : Value} (failed : value.asCondition = .error cause) :
    cause.ArisesOn program limit := by
  cases value <;> cases failed <;> exact .inr rfl

theorem Record.field_arises {record : Record} {name : String}
    (failed : Record.field record name = .error cause) : cause.ArisesOn program limit := by
  unfold Record.field at failed
  split at failed
  · cases failed
  · cases failed
    trivial

theorem Operator.apply_arises {operator : Operator} {left right : Value}
    (failed : operator.apply left right = .error cause) : cause.ArisesOn program limit := by
  rcases Operator.apply_error failed with rfl | rfl
  · trivial
  · trivial

theorem Value.setPath_arises {whole : Value} {members : List String} {value : Value}
    (failed : whole.setPath members value = .error cause) : cause.ArisesOn program limit := by
  induction members generalizing whole with
  | nil => cases failed
  | cons name others inductionHypothesis =>
    cases others with
    | nil =>
      rcases Except.bind_error failed with notStruct | ⟨record, _, failed⟩
      · exact Value.asStruct_arises notStruct
      · cases failed
    | cons second rest =>
      rcases Except.bind_error failed with notStruct | ⟨record, _, failed⟩
      · exact Value.asStruct_arises notStruct
      rcases Except.bind_error failed with noField | ⟨part, _, failed⟩
      · exact Record.field_arises noField
      rcases Except.bind_error failed with inner | ⟨changed, _, failed⟩
      · exact inductionHypothesis inner
      · cases failed

theorem Store.read_arises {store : Semantics.Store} {name : String}
    (failed : store.read name = .error cause) : cause.ArisesOn program limit := by
  unfold Semantics.Store.read at failed
  split at failed
  · cases failed
  · cases failed
    trivial

theorem Store.write_arises {store : Semantics.Store} {name : String} {value : Value}
    (failed : store.write name value = .error cause) : cause.ArisesOn program limit := by
  unfold Semantics.Store.write Semantics.Store.writeGlobal at failed
  split at failed
  · split at failed
    · cases failed
    · cases failed
      trivial
  · split at failed
    · cases failed
    · split at failed
      · cases failed
      · cases failed
        trivial

end Values

namespace Semantics.Bounded

section Trees

variable {program : Program} {types : StructTypes} {limit : Nat} {invoke : Callee}

theorem hold_faults (height : Nat) :
    FaultsOnly (RunError.ArisesOn program limit) (hold limit height) := by
  refine .lift fun cause failed => ?_
  split at failed
  · cases failed
    rfl
  · cases failed

theorem evalExprs_faults {exprs : List Expr}
    (each : ∀ expr ∈ exprs, ∀ height,
      FaultsOnly (RunError.ArisesOn program limit) (evalExpr limit invoke expr height))
    (height : Nat) :
    FaultsOnly (RunError.ArisesOn program limit) (evalExprs limit invoke exprs height) := by
  induction exprs generalizing height with
  | nil => exact .ofPure []
  | cons expr rest inductionHypothesis =>
    obtain ⟨exprEach, restEach⟩ := List.forall_mem_cons.mp each
    refine (exprEach height).bind fun value => ?_
    exact (inductionHypothesis restEach (height + 1)).bind fun values => .ofPure _

theorem assign_faults (height : Nat) (target : Expr) (value : Value) :
    FaultsOnly (RunError.ArisesOn program limit) (assign limit height target value) := by
  unfold assign
  split
  · exact .ofPure ()
  · next root members _ =>
    refine FaultsOnly.get.bind fun store => ?_
    refine (FaultsOnly.lift fun cause failed => ?_).bind fun whole => ?_
    · split at failed
      · cases failed
      · exact Store.read_arises failed
    have stored : FaultsOnly (RunError.ArisesOn program limit)
        (lift (whole.setPath members value) >>= fun changed =>
          lift (store.write root changed) >>= set) := by
      refine (FaultsOnly.lift fun cause failed => Value.setPath_arises failed).bind
        fun changed => ?_
      exact (FaultsOnly.lift fun cause failed => Store.write_arises failed).bind .set
    split
    · exact stored
    · exact (hold_faults (height + 1)).bind fun _ => stored

theorem evalStmts_faults_of_each {body : List Stmt} {height : Nat}
    (each : ∀ statement ∈ body,
      FaultsOnly (RunError.ArisesOn program limit) (evalStmt types limit invoke height statement)) :
    FaultsOnly (RunError.ArisesOn program limit) (evalStmts types limit invoke height body) := by
  induction body with
  | nil => exact .ofPure Flow.onward
  | cons statement rest inductionHypothesis =>
    obtain ⟨statementEach, restEach⟩ := List.forall_mem_cons.mp each
    refine statementEach.bind fun flow => ?_
    cases flow with
    | onward => exact inductionHypothesis restEach
    | returned value => exact .ofPure _

variable (calls : ∀ height callee arguments,
  FaultsOnly (RunError.ArisesOn program limit) (invoke height callee arguments))

include calls

theorem evalExpr_faults (expr : Expr) (height : Nat) :
    FaultsOnly (RunError.ArisesOn program limit) (evalExpr limit invoke expr height) := by
  induction expr using Expr.induction generalizing height with
  | literal value => exact (hold_faults height).bind fun _ => .ofPure _
  | identifier name =>
    refine FaultsOnly.get.bind fun store => ?_
    refine (FaultsOnly.lift fun cause failed => Store.read_arises failed).bind fun value => ?_
    exact (hold_faults height).bind fun _ => .ofPure value
  | binary operator left right leftHypothesis rightHypothesis =>
    refine (leftHypothesis height).bind fun leftValue => ?_
    refine (rightHypothesis (height + 1)).bind fun rightValue => ?_
    cases operator with
    | evaluated operator => exact .lift fun cause failed => Operator.apply_arises failed
    | _ => exact .ofPure _
  | call callee arguments argumentHypothesis =>
    refine (evalExprs_faults argumentHypothesis height).bind fun values => ?_
    exact (calls height callee values).bind fun result => .ofPure _
  | member object name objectHypothesis =>
    refine (objectHypothesis height).bind fun whole => ?_
    refine (FaultsOnly.lift fun cause failed => Value.asStruct_arises failed).bind fun record => ?_
    exact .lift fun cause failed => Record.field_arises failed

theorem condition_faults (condition : Expr) (height : Nat) {branch : Bool → Evaluation Flow}
    (each : ∀ truth, FaultsOnly (RunError.ArisesOn program limit) (branch truth)) :
    FaultsOnly (RunError.ArisesOn program limit)
      (evalExpr limit invoke condition height >>= fun value =>
        lift value.asCondition >>= branch) := by
  refine (evalExpr_faults calls condition height).bind fun value => ?_
  exact (FaultsOnly.lift fun cause failed => Value.asCondition_arises failed).bind each

theorem evalStmt_faults (statement : Stmt) (height : Nat) :
    FaultsOnly (RunError.ArisesOn program limit)
      (evalStmt types limit invoke height statement) := by
  induction statement using Stmt.induction with
  | expression expr => exact (evalExpr_faults calls expr height).bind fun _ => .ofPure _
  | declaration type name initial =>
    have defined : ∀ value, FaultsOnly (RunError.ArisesOn program limit)
        ((modify fun store => store.define name value) >>= fun _ => pure Flow.onward) :=
      fun value => (FaultsOnly.modify _).bind fun _ => .ofPure _
    cases initial with
    | some expr => exact (evalExpr_faults calls expr height).bind defined
    | none => exact (hold_faults height).bind fun _ => defined _
  | assignment target value =>
    refine (evalExpr_faults calls value height).bind fun result => ?_
    exact (assign_faults height target result).bind fun _ => .ofPure _
  | returning value =>
    cases value with
    | none => exact .ofPure _
    | some expr => exact (evalExpr_faults calls expr height).bind fun _ => .ofPure _
  | block body bodyHypothesis => exact evalStmts_faults_of_each bodyHypothesis
  | oneWay condition thenBranch thenHypothesis =>
    refine condition_faults calls condition height fun truth => ?_
    cases truth with
    | true => exact thenHypothesis
    | false => exact .ofPure _
  | twoWay condition thenBranch elseBranch thenHypothesis elseHypothesis =>
    refine condition_faults calls condition height fun truth => ?_
    cases truth with
    | true => exact thenHypothesis
    | false => exact elseHypothesis

theorem evalStmts_faults (body : List Stmt) (height : Nat) :
    FaultsOnly (RunError.ArisesOn program limit) (evalStmts types limit invoke height body) :=
  evalStmts_faults_of_each fun statement _ => evalStmt_faults calls statement height

theorem runFunction_faults (function : FunctionDecl) (arguments : List Value) (height : Nat) :
    FaultsOnly (RunError.ArisesOn program limit)
      (runFunction types limit invoke height function arguments) := by
  refine FaultsOnly.get.bind fun caller => ?_
  refine (FaultsOnly.set _).bind fun _ => ?_
  refine ((evalStmts_faults calls function.body height).inside function.name).bind fun flow => ?_
  refine (FaultsOnly.modify _).bind fun _ => ?_
  cases flow <;> exact .ofPure _

end Trees

/-- A call can stop with no cause that its program does not allow. -/
theorem invoke_faults (program : Program) (types : StructTypes) (settings : Settings) (limit : Nat)
    (remaining height : Nat) (callee : String) (arguments : List Value) :
    FaultsOnly (RunError.ArisesOn program limit)
      (invoke program.functions types settings limit remaining height callee arguments) := by
  induction remaining generalizing height callee arguments with
  | zero =>
    unfold invoke
    cases absent : program.functions.find? callee with
    | none => exact .throw (Program.undeclared_of_find? absent)
    | some function => exact .throw trivial
  | succ remaining inductionHypothesis =>
    unfold invoke
    cases absent : program.functions.find? callee with
    | none => exact .throw (Program.undeclared_of_find? absent)
    | some function => exact runFunction_faults inductionHypothesis function arguments height

end Semantics.Bounded

end StackLang
