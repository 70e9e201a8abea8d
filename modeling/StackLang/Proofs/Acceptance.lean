import StackLang.Proofs.WellFormed

/-!
# Which programs are accepted

Lowering refuses nothing but what its rules forbid: a legal tree is lowered whatever was emitted
before (`Expr.Legal.exists_lower`, `Stmt.Legal.exists_lower`). With the converse, that only legal
trees are lowered, a program is compiled exactly if it is well formed (`program_accepted_iff`).
-/

namespace StackLang

/-- A computation succeeds if its first step does and the others do after it. -/
theorem Except.exists_bind_ok {ε α β : Type} {first : Except ε α} {next : α → Except ε β}
    (firstSucceeds : ∃ value, first = .ok value)
    (nextSucceeds : ∀ value, ∃ result, next value = .ok result) :
    ∃ result, first >>= next = .ok result := by
  obtain ⟨value, rfl⟩ := firstSucceeds
  exact nextSucceeds value

/-- A check and what follows it succeed together exactly if both do. -/
theorem Except.check_bind_ok_iff {ε α : Type} {check : Except ε Unit} {next : Except ε α}
    {result : α} :
    (check >>= fun _ => next) = .ok result ↔ check = .ok () ∧ next = .ok result := by
  cases check <;> simp [bind, Except.bind]

variable {context : BodyContext}

namespace BodyContext

theorem exists_requireArity {callee : String} {count : Nat} (takes : context.Takes callee count) :
    ∃ done, context.requireArity callee count = .ok done := by
  unfold requireArity
  split
  · exact ⟨_, rfl⟩
  · next declaration found => exact ⟨_, if_pos (takes declaration found)⟩

theorem exists_requireValue {callee : String} (hasValue : context.callHasValue callee = true) :
    ∃ done, context.requireValue callee = .ok done :=
  ⟨_, if_pos hasValue⟩

end BodyContext

namespace Expr

theorem exists_lowerAll {exprs : List Expr}
    (each : ∀ expr ∈ exprs, ∀ emitter, ∃ next, expr.lower context emitter = .ok next)
    (emitter : Emitter) : ∃ next, lowerAll context exprs emitter = .ok next := by
  induction exprs generalizing emitter with
  | nil => exact ⟨emitter, rfl⟩
  | cons expr rest inductionHypothesis =>
    obtain ⟨exprEach, restEach⟩ := List.forall_mem_cons.mp each
    exact Except.exists_bind_ok (exprEach emitter) fun next => inductionHypothesis restEach next

/-- A legal expression is lowered. -/
theorem Legal.exists_lower {expr : Expr} (legal : expr.Legal context) (emitter : Emitter) :
    ∃ next, expr.lower context emitter = .ok next := by
  induction legal generalizing emitter with
  | literal | identifier => exact ⟨_, rfl⟩
  | binary operator _ _ leftHypothesis rightHypothesis =>
    refine Except.exists_bind_ok ⟨operator, rfl⟩ fun evaluated => ?_
    refine Except.exists_bind_ok (leftHypothesis emitter) fun afterLeft => ?_
    exact Except.exists_bind_ok (rightHypothesis afterLeft) fun _ => ⟨_, rfl⟩
  | call hasValue takes _ argumentHypothesis =>
    refine Except.exists_bind_ok (BodyContext.exists_requireValue hasValue) fun _ => ?_
    refine Except.exists_bind_ok (BodyContext.exists_requireArity takes) fun _ => ?_
    exact Except.exists_bind_ok (exists_lowerAll argumentHypothesis emitter) fun _ => ⟨_, rfl⟩
  | member name _ objectHypothesis =>
    exact Except.exists_bind_ok (objectHypothesis emitter) fun _ => ⟨_, rfl⟩

end Expr

namespace Stmt

theorem exists_lower_effect {callee : String} {arguments : List Expr}
    (takes : context.Takes callee arguments.length)
    (argumentsLegal : ∀ argument ∈ arguments, argument.Legal context) (emitter : Emitter) :
    ∃ next, (Expr.call callee arguments).lowerForEffect context emitter = .ok next := by
  refine Except.exists_bind_ok (BodyContext.exists_requireArity takes) fun _ => ?_
  have lowered := Expr.exists_lowerAll (fun argument member =>
    (argumentsLegal argument member).exists_lower) emitter
  exact Except.exists_bind_ok lowered fun _ => ⟨_, rfl⟩

theorem exists_lower_expression {expr : Expr} (legal : expr.Legal context) (emitter : Emitter) :
    ∃ next, expr.lowerForEffect context emitter = .ok next := by
  cases expr with
  | call callee arguments =>
    cases legal with
    | call _ takes argumentsLegal => exact exists_lower_effect takes argumentsLegal emitter
  | literal | identifier | binary | member =>
    exact Except.exists_bind_ok (legal.exists_lower emitter) fun _ => ⟨_, rfl⟩

theorem exists_lower_declaration {type : String} {default : Value} {initial : Option Expr}
    (name : String) (known : context.types.defaultValue type = .ok default)
    (legal : ∀ expr ∈ initial, expr.Legal context) (emitter : Emitter) :
    ∃ next, lowerDeclaration context type name initial emitter = .ok next := by
  refine Except.exists_bind_ok ⟨default, known⟩ fun default => ?_
  cases initial with
  | some expr =>
    exact Except.exists_bind_ok ((legal expr rfl).exists_lower emitter) fun _ => ⟨_, rfl⟩
  | none =>
    dsimp only
    split <;> exact ⟨_, rfl⟩

theorem exists_lower_assignment {target value : Expr} {root : String} {members : List String}
    (path : target.path = .ok (root, members)) (legal : value.Legal context) (emitter : Emitter) :
    ∃ next, lowerAssignment context target value emitter = .ok next := by
  cases target with
  | identifier name => exact Except.exists_bind_ok (legal.exists_lower emitter) fun _ => ⟨_, rfl⟩
  | member object name =>
    simp only [lowerAssignment, path]
    exact Except.exists_bind_ok (legal.exists_lower emitter) fun _ => ⟨_, rfl⟩
  | literal | binary | call => cases path

theorem exists_lower_returning {function : FunctionDecl} {value : Option Expr}
    (enclosing : context.enclosing = some function)
    (agrees : value.isSome = function.returnsValue) (legal : ∀ expr ∈ value, expr.Legal context)
    (emitter : Emitter) : ∃ next, lowerReturn context value emitter = .ok next := by
  simp only [lowerReturn, enclosing, ← agrees]
  cases value with
  | some expr =>
    exact Except.exists_bind_ok ((legal expr rfl).exists_lower _) fun _ => ⟨_, rfl⟩
  | none => exact ⟨_, rfl⟩

theorem exists_lowerAll {body : List Stmt}
    (each : ∀ statement ∈ body, ∀ emitter, ∃ next, statement.lower context emitter = .ok next)
    (emitter : Emitter) : ∃ next, lowerAll context body emitter = .ok next := by
  induction body generalizing emitter with
  | nil => exact ⟨emitter, rfl⟩
  | cons statement rest inductionHypothesis =>
    obtain ⟨statementEach, restEach⟩ := List.forall_mem_cons.mp each
    exact Except.exists_bind_ok (statementEach emitter) fun next =>
      inductionHypothesis restEach next

/-- A legal statement is lowered. -/
theorem Legal.exists_lower {statement : Stmt} (legal : statement.Legal context)
    (emitter : Emitter) : ∃ next, statement.lower context emitter = .ok next := by
  induction legal generalizing emitter with
  | expression legal => exact exists_lower_expression legal _
  | effect takes argumentsLegal => exact exists_lower_effect takes argumentsLegal _
  | declaration name known legal => exact exists_lower_declaration name known legal _
  | assignment path legal => exact exists_lower_assignment path legal _
  | returning enclosing agrees legal => exact exists_lower_returning enclosing agrees legal _
  | block _ bodyHypothesis => exact exists_lowerAll bodyHypothesis emitter
  | oneWay conditionLegal _ thenHypothesis =>
    refine Except.exists_bind_ok (conditionLegal.exists_lower _) fun _ => ?_
    exact Except.exists_bind_ok (thenHypothesis _) fun _ => ⟨_, rfl⟩
  | twoWay conditionLegal _ _ thenHypothesis elseHypothesis =>
    refine Except.exists_bind_ok (conditionLegal.exists_lower _) fun _ => ?_
    refine Except.exists_bind_ok (thenHypothesis _) fun _ => ?_
    exact Except.exists_bind_ok (elseHypothesis _) fun _ => ⟨_, rfl⟩

end Stmt

theorem BodyContext.compileBody_ok_iff {body : List Stmt} :
    (∃ code, context.compileBody body = .ok code) ↔
      ∀ statement ∈ body, statement.Legal context := by
  constructor
  · rintro ⟨code, compiled⟩
    exact (BodyContext.compileBody_ok compiled).1
  · intro legal
    have lowered := Stmt.exists_lowerAll (fun statement member =>
      (legal statement member).exists_lower) {}
    exact Except.exists_bind_ok lowered fun _ => ⟨_, rfl⟩

section Functions

variable {program : Program} {types : StructTypes}

namespace StructTypes

theorem check_ok_iff (resolved : ofProgram program = .ok types) {type : String} :
    types.check type = .ok () ↔ program.Resolves type := by
  rw [← defaultValue_ok_iff resolved, check]
  cases types.defaultValue type <;> simp

theorem checkReturn_ok_iff (resolved : ofProgram program = .ok types) {type : String} :
    types.checkReturn type = .ok () ↔ isVoid type = true ∨ program.Resolves type := by
  rw [← check_ok_iff resolved, checkReturn]
  by_cases void : isVoid type = true <;> simp [void]

theorem checkParameters_ok_iff (resolved : ofProgram program = .ok types)
    {parameters : List TypedName} :
    types.checkParameters parameters = .ok () ↔
      ∀ parameter ∈ parameters, program.Resolves parameter.type := by
  induction parameters with
  | nil => simp [checkParameters]
  | cons parameter rest inductionHypothesis =>
    rw [List.forall_mem_cons, ← check_ok_iff resolved, ← inductionHypothesis]
    exact Except.check_bind_ok_iff

end StructTypes

namespace FunctionDecl

variable {function : FunctionDecl}

theorem check_ok_iff (resolved : StructTypes.ofProgram program = .ok types) :
    function.check types = .ok () ↔
      (isVoid function.returnType = true ∨ program.Resolves function.returnType) ∧
        (∀ parameter ∈ function.parameters, program.Resolves parameter.type) ∧
        (isVoid function.returnType = false → ¬ (Stmt.block function.body).Passable) := by
  rw [← StructTypes.checkReturn_ok_iff resolved, ← StructTypes.checkParameters_ok_iff resolved,
    ← Stmt.returns_eq_false_iff, Stmt.returns]
  refine Except.check_bind_ok_iff.trans (and_congr_right fun _ => ?_)
  refine Except.check_bind_ok_iff.trans (and_congr_right fun _ => ?_)
  unfold returnsValue
  cases isVoid function.returnType <;> cases Stmt.anyReturns function.body <;>
    simp [throw, throwThe, MonadExceptOf.throw, pure, Except.pure]

/-- A function is compiled exactly if it is well formed. -/
theorem compile_ok_iff (resolved : StructTypes.ofProgram program = .ok types) :
    (∃ code, function.compile program.functions types = .ok code) ↔
      function.WellFormed program := by
  have body : (∃ code, (BodyContext.forFunction program.functions types function).compileBody
      function.body = .ok code) ↔
      ∀ statement ∈ function.body, statement.WellFormed program (some function) := by
    rw [BodyContext.compileBody_ok_iff]
    exact forall₂_congr fun statement _ => Stmt.legal_iff resolved
  constructor
  · rintro ⟨code, compiled⟩
    obtain ⟨checked, bodyCompiled⟩ := Except.check_bind_ok_iff.mp compiled
    obtain ⟨returnType, parameters, returns⟩ := (check_ok_iff resolved).mp checked
    exact ⟨returnType, parameters, returns, body.mp ⟨code, bodyCompiled⟩⟩
  · intro wellFormed
    obtain ⟨code, bodyCompiled⟩ := body.mpr wellFormed.body
    have checked := (check_ok_iff resolved).mpr
      ⟨wellFormed.returnType, wellFormed.parameters, wellFormed.returns⟩
    exact ⟨code, Except.check_bind_ok_iff.mpr ⟨checked, bodyCompiled⟩⟩

end FunctionDecl

/-- Functions are all placed exactly if each of them is compiled. -/
theorem Layout.placeAll_ok_iff {declared : Bindings FunctionDecl} {functions : List FunctionDecl}
    {layout : Layout} :
    (placeAll declared types functions layout).2 = .ok () ↔
      ∀ function ∈ functions, ∃ code, function.compile declared types = .ok code := by
  induction functions generalizing layout with
  | nil => simp [placeAll]
  | cons function rest inductionHypothesis =>
    rw [List.forall_mem_cons]
    unfold placeAll
    cases compiled : function.compile declared types with
    | ok body => simp [inductionHypothesis]
    | error cause => simp

end Functions

/-- A program is compiled exactly if its struct types exist, all its functions are placed and its
global statements have code. -/
theorem Program.compile_ok_iff {program : Program} :
    (∃ compiled, program.compile = .ok compiled) ↔
      ∃ types, StructTypes.ofProgram program = .ok types ∧
        (Layout.placeAll program.functions types program.functionDecls {}).2 = .ok () ∧
        ∃ code, (BodyContext.forGlobals program.functions types).compileBody
          program.globalStatements = .ok code := by
  unfold Program.compile Program.compilation
  cases resolved : StructTypes.ofProgram program with
  | error cause => simp
  | ok types =>
    cases placed : Layout.placeAll program.functions types program.functionDecls {} with
    | mk layout outcome =>
      cases outcome with
      | error cause => simp [placed]
      | ok done =>
        cases compiled : (BodyContext.forGlobals program.functions types).compileBody
          program.globalStatements <;> simp [placed, compiled]

/-- A program is compiled exactly if it is well formed. -/
theorem program_accepted_iff (program : Program) :
    (∃ compiled, program.compile = .ok compiled) ↔ program.WellFormed := by
  rw [Program.compile_ok_iff]
  constructor
  · rintro ⟨types, resolved, placed, globals⟩
    have compiled := Layout.placeAll_ok_iff.mp placed
    have legal := BodyContext.compileBody_ok_iff.mp globals
    exact ⟨StructTypes.ofProgram_ok_iff.mp ⟨types, resolved⟩,
      fun function member => (FunctionDecl.compile_ok_iff resolved).mp (compiled function member),
      fun statement member => (Stmt.legal_iff resolved).mp (legal statement member)⟩
  · intro wellFormed
    obtain ⟨types, resolved⟩ := StructTypes.ofProgram_ok_iff.mpr wellFormed.structs
    refine ⟨types, resolved, Layout.placeAll_ok_iff.mpr ?_, BodyContext.compileBody_ok_iff.mpr ?_⟩
    · intro function member
      exact (FunctionDecl.compile_ok_iff resolved).mpr (wellFormed.functions function member)
    · intro statement member
      exact (Stmt.legal_iff resolved).mpr (wellFormed.globals statement member)

end StackLang
