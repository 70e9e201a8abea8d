import StackLang.Lowering.Fragment
import StackLang.Lowering.Stmt
import StackLang.Proofs.TreeInduction

/-!
# What is emitted for a tree that is accepted

`Expr.Legal` and `Stmt.Legal` say which trees can stand in a body. Lowering succeeds on no other
tree (`Expr.lower_ok`, `Stmt.lower_ok`), and what it emits is the code composed from parts: all that
was emitted before stays as it is, and every jump has been given the length of what it passes over.
-/

namespace StackLang

theorem Except.bind_ok {ε α β : Type} {first : Except ε α} {next : α → Except ε β} {result : β}
    (succeeds : first >>= next = .ok result) :
    ∃ value, first = .ok value ∧ next value = .ok result := by
  cases first with
  | error cause => cases succeeds
  | ok value => exact ⟨value, rfl, succeeds⟩

/-- A call of the given name has a number of arguments that a declaration of the name allows. -/
def BodyContext.Takes (context : BodyContext) (callee : String) (count : Nat) : Prop :=
  ∀ declaration, context.functions.find? callee = some declaration → declaration.arity = count

/-- The expressions that can stand where a value is needed. -/
inductive Expr.Legal (context : BodyContext) : Expr → Prop where
  | literal (value : Literal) : Legal context (.literal value)
  | identifier (name : String) : Legal context (.identifier name)
  | binary (operator : Operator) {left right : Expr} (leftLegal : Legal context left)
      (rightLegal : Legal context right) :
      Legal context (.binary (.evaluated operator) left right)
  | call {callee : String} {arguments : List Expr} (hasValue : context.callHasValue callee = true)
      (takes : context.Takes callee arguments.length)
      (argumentsLegal : ∀ argument ∈ arguments, Legal context argument) :
      Legal context (.call callee arguments)
  | member {object : Expr} (name : String) (objectLegal : Legal context object) :
      Legal context (.member object name)

/-- The statements that can stand in a body. -/
inductive Stmt.Legal (context : BodyContext) : Stmt → Prop where
  | expression {expr : Expr} (legal : expr.Legal context) : Legal context (.expression expr)
  /-- A call for its effect may be one of a function without a value. -/
  | effect {callee : String} {arguments : List Expr}
      (takes : context.Takes callee arguments.length)
      (argumentsLegal : ∀ argument ∈ arguments, argument.Legal context) :
      Legal context (.expression (.call callee arguments))
  | declaration {type : String} (name : String) {initial : Option Expr} {default : Value}
      (known : context.types.defaultValue type = .ok default)
      (legal : ∀ expr ∈ initial, expr.Legal context) :
      Legal context (.declaration type name initial)
  | assignment {target value : Expr} {root : String} {members : List String}
      (path : target.path = .ok (root, members)) (legal : value.Legal context) :
      Legal context (.assignment target value)
  | returning {function : FunctionDecl} {value : Option Expr}
      (enclosing : context.enclosing = some function)
      (agrees : value.isSome = function.returnsValue)
      (legal : ∀ expr ∈ value, expr.Legal context) : Legal context (.returning value)
  | block {body : List Stmt} (legal : ∀ statement ∈ body, Legal context statement) :
      Legal context (.block body)
  | oneWay {condition : Expr} {thenBranch : Stmt} (conditionLegal : condition.Legal context)
      (thenLegal : Legal context thenBranch) :
      Legal context (.conditional condition thenBranch none)
  | twoWay {condition : Expr} {thenBranch elseBranch : Stmt}
      (conditionLegal : condition.Legal context) (thenLegal : Legal context thenBranch)
      (elseLegal : Legal context elseBranch) :
      Legal context (.conditional condition thenBranch (some elseBranch))

namespace BodyContext

theorem takes_of_requireArity {context : BodyContext} {callee : String} {count : Nat}
    (accepted : context.requireArity callee count = .ok ()) : context.Takes callee count := by
  intro declaration found
  simp only [requireArity, found] at accepted
  split at accepted
  · next same => exact same
  · cases accepted

theorem callHasValue_of_requireValue {context : BodyContext} {callee : String}
    (accepted : context.requireValue callee = .ok ()) : context.callHasValue callee = true := by
  unfold requireValue at accepted
  split at accepted
  · next hasValue => exact hasValue
  · cases accepted

end BodyContext

namespace Emitter

/-- The emitter after some instructions have been appended. -/
def append (emitter : Emitter) (fragment : List Instruction) : Emitter :=
  { emitter with code := emitter.code ++ fragment.toArray }

@[simp] theorem tag_append (emitter : Emitter) (fragment : List Instruction) :
    (emitter.append fragment).tag = emitter.tag := rfl

@[simp] theorem tag_setTag (emitter : Emitter) (tag : String) :
    (emitter.setTag tag).tag = tag := rfl

@[simp] theorem code_setTag (emitter : Emitter) (tag : String) :
    (emitter.setTag tag).code = emitter.code := rfl

@[simp] theorem code_append (emitter : Emitter) (fragment : List Instruction) :
    (emitter.append fragment).code.toList = emitter.code.toList ++ fragment := by
  simp [append]

@[simp] theorem address_nextLabel (emitter : Emitter) :
    emitter.nextLabel.address = emitter.code.toList.length := by
  simp [nextLabel, offset]

@[simp] theorem append_nil (emitter : Emitter) : emitter.append [] = emitter := by
  simp [append]

@[simp] theorem append_append (emitter : Emitter) (first second : List Instruction) :
    (emitter.append first).append second = emitter.append (first ++ second) := by
  simp [append]

theorem emitWith_eq_append (emitter : Emitter) (opcode : Opcode) (operand : Value) :
    emitter.emitWith opcode operand = emitter.append [⟨opcode, operand, emitter.tag⟩] := by
  simp [emitWith, append]

theorem emitNamed_eq_append (emitter : Emitter) (opcode : Opcode) (name : String) :
    emitter.emitNamed opcode name = emitter.append [.named opcode name emitter.tag] :=
  emitWith_eq_append emitter opcode (.string name)

theorem emit_eq_append (emitter : Emitter) (opcode : Opcode) :
    emitter.emit opcode = emitter.append [.bare opcode emitter.tag] :=
  emitWith_eq_append emitter opcode .none

theorem emitConstant_eq_append (emitter : Emitter) (value : Value) :
    emitter.emitConstant value = emitter.append [⟨.loadConst, value, emitter.tag⟩] :=
  emitWith_eq_append emitter .loadConst value

theorem emitJump_eq_append (emitter : Emitter) (opcode : Opcode) :
    emitter.emitJump opcode = emitter.append [⟨opcode, .int 0, emitter.tag⟩] :=
  emitWith_eq_append emitter opcode (.int 0)

end Emitter

namespace Expr

theorem lowerAll_ok {context : BodyContext} {exprs : List Expr}
    (each : ∀ expr ∈ exprs, ∀ {emitter next : Emitter}, expr.lower context emitter = .ok next →
      expr.Legal context ∧ next = emitter.append (expr.code emitter.tag))
    {emitter next : Emitter} (lowered : lowerAll context exprs emitter = .ok next) :
    (∀ expr ∈ exprs, expr.Legal context) ∧ next = emitter.append (codeAll emitter.tag exprs) := by
  induction exprs generalizing emitter with
  | nil =>
    cases lowered
    exact ⟨fun _ absent => absurd absent List.not_mem_nil, by simp [codeAll]⟩
  | cons expr rest inductionHypothesis =>
    obtain ⟨middle, first, later⟩ := Except.bind_ok lowered
    obtain ⟨exprEach, restEach⟩ := List.forall_mem_cons.mp each
    obtain ⟨legal, rfl⟩ := exprEach first
    obtain ⟨restLegal, rfl⟩ := inductionHypothesis restEach later
    exact ⟨List.forall_mem_cons.mpr ⟨legal, restLegal⟩, by simp [codeAll]⟩

/-- An expression that is lowered is legal, and its code is appended. -/
theorem lower_ok {context : BodyContext} {expr : Expr} {emitter next : Emitter}
    (lowered : expr.lower context emitter = .ok next) :
    expr.Legal context ∧ next = emitter.append (expr.code emitter.tag) := by
  induction expr using Expr.induction generalizing emitter next with
  | literal value =>
    cases lowered
    exact ⟨.literal value, emitter.emitConstant_eq_append value.toValue⟩
  | identifier name =>
    cases lowered
    exact ⟨.identifier name, emitter.emitNamed_eq_append .loadVar name⟩
  | binary operator left right leftHypothesis rightHypothesis =>
    obtain ⟨evaluated, mapped, lowered⟩ := Except.bind_ok lowered
    obtain ⟨afterLeft, leftLowered, lowered⟩ := Except.bind_ok lowered
    obtain ⟨afterRight, rightLowered, emitted⟩ := Except.bind_ok lowered
    obtain ⟨leftLegal, rfl⟩ := leftHypothesis leftLowered
    obtain ⟨rightLegal, rfl⟩ := rightHypothesis rightLowered
    cases operator <;> cases mapped
    cases emitted
    exact ⟨.binary evaluated leftLegal rightLegal, by simp [Emitter.emit_eq_append, code]⟩
  | call callee arguments argumentHypothesis =>
    obtain ⟨_, hasValue, lowered⟩ := Except.bind_ok lowered
    obtain ⟨_, takes, lowered⟩ := Except.bind_ok lowered
    obtain ⟨afterArguments, argumentsLowered, emitted⟩ := Except.bind_ok lowered
    obtain ⟨argumentsLegal, rfl⟩ := lowerAll_ok argumentHypothesis argumentsLowered
    cases emitted
    exact ⟨.call (BodyContext.callHasValue_of_requireValue hasValue)
      (BodyContext.takes_of_requireArity takes) argumentsLegal,
      by simp [Emitter.emitNamed_eq_append, code]⟩
  | member object name objectHypothesis =>
    obtain ⟨afterObject, objectLowered, emitted⟩ := Except.bind_ok lowered
    obtain ⟨objectLegal, rfl⟩ := objectHypothesis objectLowered
    cases emitted
    exact ⟨.member name objectLegal, by simp [Emitter.emitNamed_eq_append, code]⟩

theorem Legal.hasValue {context : BodyContext} {expr : Expr} (legal : expr.Legal context) :
    expr.hasValue context = true := by
  cases legal with
  | call hasValue _ _ => exact hasValue
  | _ => rfl

end Expr

namespace Emitter

theorem foldl_emitNamed (emitter : Emitter) (members : List String) :
    members.foldl (fun emitter name => emitter.emitNamed .loadField name) emitter =
      emitter.append (members.map fun name => .named .loadField name emitter.tag) := by
  induction members generalizing emitter with
  | nil => simp
  | cons name rest inductionHypothesis =>
    rw [List.foldl_cons, inductionHypothesis, emitNamed_eq_append]
    simp

theorem emitPath_eq_append (emitter : Emitter) (root : String) (members : List String) :
    emitter.emitPath root members =
      emitter.append (Instruction.loadPath root members emitter.tag) := by
  rw [emitPath, foldl_emitNamed, emitNamed_eq_append]
  simp [Instruction.loadPath]

theorem emitStorePath_eq_append (emitter : Emitter) (root : String) (members : List String) :
    emitStorePath root members emitter =
      emitter.append (Instruction.storePath root emitter.tag members) := by
  induction members generalizing emitter with
  | nil => simp [emitStorePath, Instruction.storePath, emitNamed_eq_append]
  | cons name outer inductionHypothesis =>
    simp [emitStorePath, Instruction.storePath, inductionHypothesis, emitPath_eq_append,
      emitNamed_eq_append]

/-- Filling in a jump changes the jump and nothing around it: its distance becomes the length of
what was emitted since. -/
theorem toList_patch {emitter : Emitter} {label : JumpLabel} {front passed : List Instruction}
    {jump : Instruction} (emitted : emitter.code.toList = front ++ jump :: passed)
    (labelled : label.address = front.length) :
    (emitter.patch label).code.toList =
      front ++ .jumpOver jump.opcode passed.length jump.tag :: passed := by
  have size : emitter.code.size = front.length + (passed.length + 1) := by
    simpa using congrArg List.length emitted
  have distance : emitter.code.size - (front.length + 1) = passed.length := by omega
  have behind : (front ++ jump :: passed).drop (front.length + 1) = passed := by
    rw [List.drop_length_add_append]
    rfl
  simp [patch, offset, labelled, emitted, Emitter.distance, distance, Instruction.jumpOver,
    List.modify_eq_take_cons_drop, behind]

end Emitter

namespace Stmt

/-- What is known of a statement that has been lowered. -/
def Emitted (context : BodyContext) (statement : Stmt) (emitter next : Emitter) : Prop :=
  statement.Legal context ∧
    next.code.toList = emitter.code.toList ++ statement.code context

theorem lowerForEffect_ok {context : BodyContext} {expr : Expr} {emitter next : Emitter}
    (lowered : expr.lowerForEffect context (emitter.setTag (context.tag "expr")) = .ok next) :
    Emitted context (.expression expr) emitter next := by
  unfold Expr.lowerForEffect at lowered
  split at lowered
  · next callee arguments =>
    obtain ⟨_, takes, lowered⟩ := Except.bind_ok lowered
    obtain ⟨afterArguments, argumentsLowered, emitted⟩ := Except.bind_ok lowered
    obtain ⟨argumentsLegal, rfl⟩ := Expr.lowerAll_ok (fun _ _ => Expr.lower_ok) argumentsLowered
    refine ⟨.effect (BodyContext.takes_of_requireArity takes) argumentsLegal, ?_⟩
    cases emitted
    by_cases hasValue : context.callHasValue callee = true <;>
      simp [hasValue, Expr.hasValue, code, Expr.code, Emitter.emitNamed_eq_append,
        Emitter.emit_eq_append]
  · obtain ⟨afterExpr, exprLowered, emitted⟩ := Except.bind_ok lowered
    obtain ⟨legal, rfl⟩ := Expr.lower_ok exprLowered
    refine ⟨.expression legal, ?_⟩
    cases emitted
    simp [code, legal.hasValue, Emitter.emit_eq_append]

theorem lowerDeclaration_ok {context : BodyContext} {type name : String} {initial : Option Expr}
    {emitter next : Emitter}
    (lowered : lowerDeclaration context type name initial
      (emitter.setTag (context.tag "decl")) = .ok next) :
    Emitted context (.declaration type name initial) emitter next := by
  obtain ⟨default, known, lowered⟩ := Except.bind_ok lowered
  cases initial with
  | some expr =>
    obtain ⟨afterInitial, initialLowered, emitted⟩ := Except.bind_ok lowered
    obtain ⟨legal, rfl⟩ := Expr.lower_ok initialLowered
    refine ⟨.declaration name known fun _ same => Option.some.inj same ▸ legal, ?_⟩
    cases emitted
    simp [code, initialCode, Emitter.emitNamed_eq_append]
  | none =>
    refine ⟨.declaration name known (fun _ absent => nomatch absent), ?_⟩
    by_cases isStruct : default.isKind .struct = true
    · simp only [isStruct, if_true] at lowered
      cases lowered
      simp [code, initialCode, known, isStruct, Emitter.emitNamed_eq_append,
        Emitter.emitWith_eq_append]
    · simp only [isStruct] at lowered
      cases lowered
      simp [code, initialCode, known, isStruct, Emitter.emitNamed_eq_append,
        Emitter.emitConstant_eq_append]

theorem lowerAssignment_ok {context : BodyContext} {target value : Expr} {emitter next : Emitter}
    (lowered : lowerAssignment context target value
      (emitter.setTag (context.tag "assign")) = .ok next) :
    Emitted context (.assignment target value) emitter next := by
  unfold lowerAssignment at lowered
  split at lowered
  · next name =>
    obtain ⟨afterValue, valueLowered, emitted⟩ := Except.bind_ok lowered
    obtain ⟨legal, rfl⟩ := Expr.lower_ok valueLowered
    refine ⟨.assignment (Expr.path.eq_1 name) legal, ?_⟩
    cases emitted
    simp [code, storeCode, Expr.path, Instruction.storePath, Emitter.emitNamed_eq_append]
  · next object name =>
    split at lowered
    · cases lowered
    · next root members path =>
      obtain ⟨afterValue, valueLowered, emitted⟩ := Except.bind_ok lowered
      obtain ⟨legal, rfl⟩ := Expr.lower_ok valueLowered
      refine ⟨.assignment path legal, ?_⟩
      cases emitted
      simp [code, storeCode, path, Emitter.emitStorePath_eq_append]
  · cases lowered

theorem lowerReturn_ok {context : BodyContext} {value : Option Expr} {emitter next : Emitter}
    (lowered : lowerReturn context value emitter = .ok next) :
    Emitted context (.returning value) emitter next := by
  unfold lowerReturn at lowered
  split at lowered
  · cases lowered
  · next function enclosing =>
    split at lowered
    · next expr returnsValue =>
      obtain ⟨afterExpr, exprLowered, emitted⟩ := Except.bind_ok lowered
      obtain ⟨legal, rfl⟩ := Expr.lower_ok exprLowered
      refine ⟨.returning enclosing returnsValue.symm fun _ same => Option.some.inj same ▸ legal, ?_⟩
      cases emitted
      simp [code, Emitter.emit_eq_append]
    · next returnsNothing =>
      cases lowered
      refine ⟨.returning enclosing returnsNothing.symm (fun _ absent => nomatch absent), ?_⟩
      simp [code, Emitter.emit_eq_append]
    · cases lowered
    · cases lowered

theorem lowerAll_ok {context : BodyContext} {body : List Stmt}
    (each : ∀ statement ∈ body, ∀ {emitter next : Emitter},
      statement.lower context emitter = .ok next → Emitted context statement emitter next)
    {emitter next : Emitter} (lowered : lowerAll context body emitter = .ok next) :
    (∀ statement ∈ body, statement.Legal context) ∧
      next.code.toList = emitter.code.toList ++ codeAll context body := by
  induction body generalizing emitter with
  | nil =>
    cases lowered
    exact ⟨fun _ absent => absurd absent List.not_mem_nil, by simp [codeAll]⟩
  | cons statement rest inductionHypothesis =>
    obtain ⟨middle, first, later⟩ := Except.bind_ok lowered
    obtain ⟨statementEach, restEach⟩ := List.forall_mem_cons.mp each
    obtain ⟨legal, firstCode⟩ := statementEach first
    obtain ⟨restLegal, restCode⟩ := inductionHypothesis restEach later
    exact ⟨List.forall_mem_cons.mpr ⟨legal, restLegal⟩, by simp [codeAll, restCode, firstCode]⟩

/-- A statement that is lowered is legal, and its code is appended to what was emitted before. -/
theorem lower_ok {context : BodyContext} {statement : Stmt} {emitter next : Emitter}
    (lowered : statement.lower context emitter = .ok next) :
    Emitted context statement emitter next := by
  induction statement using Stmt.induction generalizing emitter next with
  | expression expr => exact lowerForEffect_ok lowered
  | declaration type name initial => exact lowerDeclaration_ok lowered
  | assignment target value => exact lowerAssignment_ok lowered
  | returning value => exact lowerReturn_ok lowered
  | block body bodyHypothesis =>
    obtain ⟨legal, bodyCode⟩ := lowerAll_ok bodyHypothesis lowered
    exact ⟨.block legal, bodyCode⟩
  | oneWay condition thenBranch thenHypothesis =>
    obtain ⟨afterCondition, conditionLowered, lowered⟩ := Except.bind_ok lowered
    obtain ⟨afterThen, thenLowered, emitted⟩ := Except.bind_ok lowered
    obtain ⟨conditionLegal, rfl⟩ := Expr.lower_ok conditionLowered
    obtain ⟨thenLegal, thenCode⟩ := thenHypothesis thenLowered
    refine ⟨.oneWay conditionLegal thenLegal, ?_⟩
    cases emitted
    rw [Emitter.emitJump_eq_append, Emitter.code_append, List.append_assoc] at thenCode
    rw [Emitter.toList_patch thenCode (Emitter.address_nextLabel _)]
    simp [code]
  | twoWay condition thenBranch elseBranch thenHypothesis elseHypothesis =>
    obtain ⟨afterCondition, conditionLowered, lowered⟩ := Except.bind_ok lowered
    obtain ⟨afterThen, thenLowered, lowered⟩ := Except.bind_ok lowered
    obtain ⟨afterElse, elseLowered, emitted⟩ := Except.bind_ok lowered
    obtain ⟨conditionLegal, rfl⟩ := Expr.lower_ok conditionLowered
    obtain ⟨thenLegal, thenCode⟩ := thenHypothesis thenLowered
    obtain ⟨elseLegal, elseCode⟩ := elseHypothesis elseLowered
    refine ⟨.twoWay conditionLegal thenLegal elseLegal, ?_⟩
    cases emitted
    -- The jump to the else branch is filled in when the jump to the end stands behind the then
    -- branch already, and so it passes over that jump too.
    have jumped : ((afterThen.setTag (context.tag "if")).emitJump .jump).code.toList =
        (emitter.code.toList ++ condition.code (context.tag "if")) ++
          ⟨.jumpIfFalse, .int 0, context.tag "if"⟩ ::
            (code context thenBranch ++ [⟨.jump, .int 0, context.tag "if"⟩]) := by
      simp [thenCode, Emitter.emitJump_eq_append]
    rw [Emitter.toList_patch jumped (by simp)] at elseCode
    have split : afterElse.code.toList =
        (emitter.code.toList ++ (condition.code (context.tag "if") ++
          .jumpOver .jumpIfFalse ((code context thenBranch).length + 1) (context.tag "if") ::
            code context thenBranch)) ++
          ⟨.jump, .int 0, context.tag "if"⟩ :: code context elseBranch := by
      simp [elseCode]
    rw [Emitter.toList_patch split (by simp [thenCode, Emitter.emitJump_eq_append])]
    simp [code]

end Stmt

/-- A body that is compiled has legal statements, and its code is theirs with a return behind it. -/
theorem BodyContext.compileBody_ok {context : BodyContext} {body : List Stmt} {code : Bytecode}
    (compiled : context.compileBody body = .ok code) :
    (∀ statement ∈ body, statement.Legal context) ∧ code.toList = context.bodyCode body := by
  obtain ⟨emitter, lowered, emitted⟩ := Except.bind_ok compiled
  obtain ⟨legal, bodyCode⟩ := Stmt.lowerAll_ok (fun _ _ => Stmt.lower_ok) lowered
  refine ⟨legal, ?_⟩
  cases emitted
  simp [BodyContext.bodyCode, bodyCode, Emitter.emit_eq_append]

namespace FunctionDecl

/-- What is known of a function that has been compiled. -/
structure Accepted (function : FunctionDecl) (functions : Bindings FunctionDecl)
    (types : StructTypes) : Prop where
  legal : ∀ statement ∈ function.body,
    statement.Legal (BodyContext.forFunction functions types function)
  returns : function.returnsValue = true → Stmt.anyReturns function.body = true

theorem returns_of_check {function : FunctionDecl} {types : StructTypes}
    (accepted : function.check types = .ok ()) (returnsValue : function.returnsValue = true) :
    Stmt.anyReturns function.body = true := by
  obtain ⟨_, _, accepted⟩ := Except.bind_ok accepted
  obtain ⟨_, _, accepted⟩ := Except.bind_ok accepted
  by_cases returns : Stmt.anyReturns function.body = true
  · exact returns
  · simp only [returnsValue, returns] at accepted
    cases accepted

theorem compile_ok {function : FunctionDecl} {functions : Bindings FunctionDecl}
    {types : StructTypes} {code : Bytecode}
    (compiled : function.compile functions types = .ok code) :
    function.Accepted functions types ∧
      code.toList = (BodyContext.forFunction functions types function).bodyCode function.body := by
  obtain ⟨_, checked, compiled⟩ := Except.bind_ok compiled
  obtain ⟨legal, bodyCode⟩ := BodyContext.compileBody_ok compiled
  exact ⟨⟨legal, returns_of_check checked⟩, bodyCode⟩

end FunctionDecl

end StackLang
