import StackLang.Proofs.FaultCauses
import StackLang.Proofs.ProgramRun

/-!
# Compiled programs do not go wrong

A run of an accepted program is never stopped by its own code: every jump leads into the code, every
operand has the kind that its instruction needs, and a declared function is found. A stack underflow
means one thing only, a start function that expects arguments. When a run succeeds, its value is
there exactly if the start function is declared to have one, and nothing else is left behind.
-/

namespace StackLang

namespace Semantics.Bounded

variable {program : Program} {types : StructTypes} {settings : Settings} {limit : Nat}

/-- The global statements of a program are evaluated to their end. -/
def Initialises (program : Program) (types : StructTypes) (settings : Settings) (limit : Nat) :
    Prop :=
  ∃ flow after, evalStmts types limit
    (invoke program.functions types settings limit (settings.maxCallDepth - 1)) 0
    program.globalStatements {} = .ok flow after

/-- A program can stop with a cause of its statements, for want of a start function, or because its
start function expects arguments. -/
theorem evalProgram_error {fault : Fault} {after : Store}
    (failed : evalProgram program types settings limit {} = .error fault after) :
    fault.cause.ArisesOn program limit ∨ fault.cause = .mainNotFound ∨
      (fault.cause = .stackUnderflow ∧ 1 ≤ settings.maxCallDepth ∧
        Initialises program types settings limit ∧
        ∃ main, program.function? entryPoint = some main ∧ 1 ≤ main.arity) := by
  have calls := invoke_faults program types settings limit (settings.maxCallDepth - 1)
  cases declared : program.functions.find? entryPoint with
  | none =>
    simp only [Bounded.evalProgram, declared] at failed
    cases failed
    exact .inr (.inl rfl)
  | some main =>
    rw [evalProgram_apply declared] at failed
    cases initial : evalStmts types limit
        (invoke program.functions types settings limit (settings.maxCallDepth - 1)) 0
        program.globalStatements {} with
    | error cause between =>
      rw [initial] at failed
      cases failed
      exact .inl (evalStmts_faults calls program.globalStatements 0 {} cause _ initial)
    | ok flow between =>
      simp only [initial] at failed
      split at failed
      · cases failed
        exact .inl trivial
      · next permitted =>
        split at failed
        · next parameters =>
          cases failed
          refine .inr (.inr ⟨rfl, Nat.pos_of_ne_zero permitted, ⟨flow, _, initial⟩, main, declared,
            Nat.pos_of_ne_zero parameters⟩)
        · exact .inl (runFunction_faults calls main [] 0 between fault after failed)

theorem evalProgram_underflow {main : FunctionDecl}
    (declared : program.function? entryPoint = some main) (parameters : 1 ≤ main.arity)
    (permitted : 1 ≤ settings.maxCallDepth)
    (initialises : Initialises program types settings limit) :
    ∃ after, evalProgram program types settings limit {} =
      .error { cause := .stackUnderflow } after := by
  obtain ⟨flow, after, initial⟩ := initialises
  refine ⟨after, ?_⟩
  rw [evalProgram_apply declared, initial]
  dsimp only
  rw [if_neg (Nat.ne_of_gt permitted), if_pos (Nat.ne_of_gt parameters)]

end Semantics.Bounded

namespace Machine

open Semantics

/-- The code of the global statements runs to its end. -/
def Initialises (program : CompiledProgram) (settings : Settings) (prior : State) : Prop :=
  ∃ main fuel state, program.functions.find? entryPoint = some main ∧
    settle program settings fuel (start program main prior.reset) = some (.ok () state)

namespace Session

variable {session : Session} {prior : State}

/-- The code of the global statements runs to its end exactly if the statements do. -/
theorem initialises_iff (limit_eq : prior.stack.limit = session.limit)
    {main : FunctionDecl} (declared : session.program.function? entryPoint = some main) :
    Initialises session.compiled session.settings prior ↔
      Bounded.Initialises session.program session.types session.settings session.limit := by
  obtain ⟨entry, found, _⟩ := find?_eq_some declared
  constructor
  · rintro ⟨other, fuel, state, foundOther, settled⟩
    obtain ⟨flow, after, evaluated, _⟩ := initialiser_returned limit_eq settled
    exact ⟨flow, after, evaluated⟩
  · rintro ⟨flow, after, evaluated⟩
    have runs : session.outermost.Settles _ (start session.compiled entry prior.reset)
        (Bounded.evalStmts session.types session.limit
          (Bounded.invoke session.program.functions session.types session.settings session.limit
            (session.settings.maxCallDepth - 1)) 0 session.program.globalStatements {}) _ :=
      (@initialiser_runs session entry prior limit_eq).settles (Nat.le_refl _)
        fun _ _ _ returned => returned.calls_eq
    rw [evaluated] at runs
    obtain ⟨next, settled, _⟩ := runs
    exact ⟨entry, _, next, found, settled⟩

theorem Concludes.underflow_iff {ending : Ending} (limit_eq : prior.stack.limit = session.limit)
    (concludes : session.Concludes ending
      (Bounded.evalProgram session.program session.types session.settings session.limit {})) :
    ending.outcome = .error .stackUnderflow ↔
      (∃ main, session.program.function? entryPoint = some main ∧ 1 ≤ main.arity) ∧
        1 ≤ session.settings.maxCallDepth ∧
        Initialises session.compiled session.settings prior := by
  constructor
  · intro underflow
    obtain ⟨active, after, evaluated⟩ := concludes.of_error underflow
    rcases Bounded.evalProgram_error evaluated with
      arises | missing | ⟨_, permitted, initialises, main, declared, parameters⟩
    · exact arises.elim
    · cases missing
    · have runs := (initialises_iff limit_eq declared).mpr initialises
      exact ⟨⟨main, declared, parameters⟩, permitted, runs⟩
  · rintro ⟨⟨main, declared, parameters⟩, permitted, runs⟩
    have initialises := (initialises_iff limit_eq declared).mp runs
    obtain ⟨after, evaluated⟩ :=
      Bounded.evalProgram_underflow declared parameters permitted initialises
    rw [evaluated] at concludes
    exact concludes.1

theorem Concludes.error_arises {ending : Ending} {cause : RunError}
    (concludes : session.Concludes ending
      (Bounded.evalProgram session.program session.types session.settings session.limit {}))
    (failed : ending.outcome = .error cause) :
    cause.Arises session.program ∨ cause = .mainNotFound ∨ cause = .stackUnderflow := by
  obtain ⟨active, after, evaluated⟩ := concludes.of_error failed
  rcases Bounded.evalProgram_error evaluated with arises | missing | ⟨underflow, _⟩
  · exact .inl arises.arises
  · exact .inr (.inl missing)
  · exact .inr (.inr underflow)

theorem Concludes.success {ending : Ending} {value : Option Value}
    (concludes : session.Concludes ending
      (Bounded.evalProgram session.program session.types session.settings session.limit {}))
    (succeeded : ending.outcome = .ok value) :
    (∃ main, session.program.function? entryPoint = some main ∧
      value.isSome = main.returnsValue) ∧
    ending.state.stack.values = [] ∧ ending.state.calls = [] ∧ ending.state.scopes.size = 1 := by
  obtain ⟨after, evaluated⟩ := concludes.of_ok succeeded
  rw [evaluated] at concludes
  obtain ⟨_, isSome, idle, empty, scopes⟩ := concludes
  refine ⟨?_, empty, idle, ?_⟩
  · cases declared : session.program.function? entryPoint with
    | some main =>
      rw [declared] at isSome
      exact ⟨main, rfl, isSome⟩
    | none =>
      have undeclared : session.program.functions.find? entryPoint = none := declared
      simp only [Bounded.evalProgram, undeclared] at evaluated
      cases evaluated
  · rw [scopes, Scopes.size_nested]
    rfl

end Session

/-- No run of an accepted program goes wrong: it ends with a cause that its statements can have, for
want of a start function, by an underflow that is foreseen, or with what its start function is
declared to return and with nothing left behind. -/
theorem compiled_program_is_safe {program : Program} {compiled : CompiledProgram}
    (accepted : program.compile = .ok compiled) (addressable : compiled.Addressable)
    (settings : Settings) (prior : State) :
    ∃ ending,
      (∀ fuel, stepBound compiled settings.maxCallDepth ≤ fuel →
        execute compiled settings fuel prior = some ending) ∧
      (∀ cause, ending.outcome = .error cause →
        cause.Arises program ∨ cause = .mainNotFound ∨ cause = .stackUnderflow) ∧
      (ending.outcome = .error .stackUnderflow ↔
        (∃ main, program.function? entryPoint = some main ∧ 1 ≤ main.arity) ∧
          1 ≤ settings.maxCallDepth ∧ Initialises compiled settings prior) ∧
      ∀ value, ending.outcome = .ok value →
        (∃ main, program.function? entryPoint = some main ∧ value.isSome = main.returnsValue) ∧
          ending.state.stack.values = [] ∧ ending.state.calls = [] ∧
          ending.state.scopes.size = 1 := by
  obtain ⟨types, placed⟩ := Program.placed_of_compile accepted
  let session : Session :=
    ⟨program, types, compiled, settings, prior.stack.limit, placed, addressable⟩
  obtain ⟨ending, ended, concludes⟩ := @session.execute_concludes prior rfl
  refine ⟨ending, ended, ?_, concludes.underflow_iff rfl, ?_⟩
  · intro cause failed
    exact concludes.error_arises failed
  · intro value succeeded
    exact concludes.success succeeded

/-- A program with a global variable whose start function expects an argument. -/
def expectant : Program where
  items := [
    .global (.declaration "Int" "total" none),
    .function {
      name := "main"
      returnType := "Void"
      parameters := [⟨"Int", "n"⟩]
      body := [.assignment (.identifier "total") (.identifier "n")] }]

/-- The run of `expectant` ends in the underflow that is foreseen. -/
theorem expectant_underflows :
    ∃ compiled ending, expectant.compile = .ok compiled ∧ compiled.Addressable ∧
      (∀ fuel, stepBound compiled 256 ≤ fuel →
        execute compiled {} fuel (.initial {}) = some ending) ∧
      ending.outcome = .error .stackUnderflow := by
  have accepted : expectant.compile = .ok _ := rfl
  obtain ⟨ending, ended, _, underflow, _⟩ :=
    compiled_program_is_safe accepted (by decide) {} (.initial {})
  refine ⟨_, ending, accepted, by decide, ended, underflow.mpr ⟨?_, by decide, ?_⟩⟩
  · exact ⟨_, rfl, by decide⟩
  · exact ⟨_, 3, _, rfl, rfl⟩

end Machine

end StackLang
