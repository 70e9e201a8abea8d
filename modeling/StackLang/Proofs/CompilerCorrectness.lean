import StackLang.Proofs.ProgramRun

/-!
# Compiled code means what its program means

Running the code of an accepted program and evaluating the program give the same: the same value or
error, the same global variables and the same calls active at an error. The one way in which a run
can differ is that its operand stack overflows.
-/

namespace StackLang.Machine

open Semantics

/-- A run ended as an evaluation with the given result. -/
def Ending.Agrees (ending : Ending) : EStateM.Result Fault Store (Option Value) → Prop
  | .ok value store => ending.outcome = .ok value ∧
      ending.state.scopes.table? .global = some ⟨store.globals, none⟩ ∧
      ending.state.calls.backtrace = []
  | .error fault store => ending.outcome = .error fault.cause ∧
      ending.state.scopes.table? .global = some ⟨store.globals, none⟩ ∧
      ending.state.calls.backtrace = fault.active

theorem Session.Concludes.agrees {session : Session} {ending : Ending}
    {result : EStateM.Result Fault Store (Option Value)}
    (concludes : session.Concludes ending result) : ending.Agrees result := by
  cases result with
  | ok value store =>
    obtain ⟨outcome, _, idle, _, scopes⟩ := concludes
    refine ⟨outcome, ?_, ?_⟩
    · rw [scopes, Scopes.table?_nested_global]
    · rw [idle]
      rfl
  | error fault store =>
    obtain ⟨outcome, faulted⟩ := concludes
    exact ⟨outcome, faulted.globals, faulted.backtrace⟩

/-- Every run of an accepted program ends, and unless its operand stack overflows it ends as the
evaluation of the program does. -/
theorem execute_agrees_with_evaluation {program : Program} {compiled : CompiledProgram}
    (accepted : program.compile = .ok compiled) (addressable : compiled.Addressable) :
    ∃ types, StructTypes.ofProgram program = .ok types ∧
      ∀ (settings : Settings) (prior : State), ∃ ending,
        (∀ fuel, stepBound compiled settings.maxCallDepth ≤ fuel →
          execute compiled settings fuel prior = some ending) ∧
        (ending.outcome = .error (.stackOverflow prior.stack.limit) ∨
          ending.Agrees (evalProgram program types settings {})) := by
  obtain ⟨types, placed⟩ := Program.placed_of_compile accepted
  refine ⟨types, placed.resolved, fun settings prior => ?_⟩
  let session : Session :=
    ⟨program, types, compiled, settings, prior.stack.limit, placed, addressable⟩
  obtain ⟨ending, ended, concludes⟩ := @session.execute_concludes prior rfl
  refine ⟨ending, ended, ?_⟩
  rcases Bounded.evalProgram_cuts program types settings prior.stack.limit {} with
    same | ⟨active, after, overflowed⟩
  · right
    rw [← same]
    exact concludes.agrees
  · left
    have stopped : Bounded.evalProgram session.program session.types session.settings
        session.limit {} = .error ⟨.stackOverflow prior.stack.limit, active⟩ after := overflowed
    rw [stopped] at concludes
    exact concludes.1

/-- A program that sums the numbers below its argument in a global variable by calling itself. -/
def summation : Program where
  items := [
    .global (.declaration "Int" "total" none),
    .function {
      name := "sum"
      returnType := "Int"
      parameters := [⟨"Int", "n"⟩]
      body := [
        .conditional (.binary (.evaluated .eq) (.identifier "n") (.literal (.int 0)))
          (.returning (some (.identifier "total"))) none,
        .assignment (.identifier "total")
          (.binary (.evaluated .add) (.identifier "total") (.identifier "n")),
        .returning (some (.call "sum"
          [.binary (.evaluated .sub) (.identifier "n") (.literal (.int 1))]))] },
    .function {
      name := "main"
      returnType := "Int"
      parameters := []
      body := [.returning (some (.call "sum" [.literal (.int 3)]))] }]

theorem summation_evaluates : ∃ store,
    evalProgram summation ⟨{}⟩ {} {} = .ok (some (.int 6)) store :=
  ⟨_, rfl⟩

/-- The runs of `summation` agree with its evaluation, deep recursion and small stacks included.
Within the usual limits the stack does not overflow, and both give the sum. -/
theorem summation_agrees_with_evaluation :
    ∃ compiled types, summation.compile = .ok compiled ∧ compiled.Addressable ∧
      StructTypes.ofProgram summation = .ok types ∧
      (∀ (settings : Settings) (prior : State), ∃ ending,
        (∀ fuel, stepBound compiled settings.maxCallDepth ≤ fuel →
          execute compiled settings fuel prior = some ending) ∧
        (ending.outcome = .error (.stackOverflow prior.stack.limit) ∨
          ending.Agrees (evalProgram summation types settings {}))) ∧
      ∃ ending store, execute compiled {} 50 (.initial {}) = some ending ∧
        evalProgram summation types {} {} = .ok (some (.int 6)) store ∧
        ending.Agrees (.ok (some (.int 6)) store) := by
  have accepted : summation.compile = .ok _ := rfl
  obtain ⟨types, resolved, agrees⟩ := execute_agrees_with_evaluation accepted (by decide)
  cases resolved.symm.trans (show StructTypes.ofProgram summation = .ok ⟨{}⟩ from rfl)
  refine ⟨_, _, accepted, by decide, resolved, agrees, ?_⟩
  have runs : ((summation.compile.toOption.bind fun compiled =>
      execute compiled {} 50 (.initial {})).any fun ending => ending.outcome.isOk) = true := by
    decide +kernel
  rw [accepted, Except.toOption, Option.bind_some] at runs
  obtain ⟨ending, ended, isOk⟩ := (Option.any_eq_true _ _).mp runs
  obtain ⟨store, evaluated⟩ := summation_evaluates
  refine ⟨ending, store, ended, evaluated, ?_⟩
  obtain ⟨same, endedSame, agreed⟩ := agrees {} (.initial {})
  have later := endedSame _ (Nat.le_max_right 50 _)
  cases (execute_mono ended (Nat.le_max_left 50 _)).symm.trans later
  rw [evaluated] at agreed
  refine agreed.resolve_left fun overflowed => ?_
  rw [overflowed] at isOk
  cases isOk

end StackLang.Machine
