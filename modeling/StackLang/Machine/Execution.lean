import StackLang.Machine.Step

/-!
# Runs of the machine

A run carries out the global statements in a frame of their own and then calls the start function.
Code that was not compiled from a program may run for ever, so the number of steps is bounded; a
run that ends within one bound ends in the same way within any greater one.
-/

namespace StackLang.Machine

/-- How a run ended: the value of the start function, if it has one, or the error that stopped the
run. -/
structure Ending where
  outcome : Except RunError (Option Value)
  state : State

/-- Carry out steps until no call is active, or until an error. There is no answer if that takes
more than `fuel` steps. -/
def settle (program : CompiledProgram) (settings : Settings) :
    Nat → State → Option (EStateM.Result RunError State Unit)
  | 0, state => if state.calls.isEmpty then some (.ok () state) else none
  | fuel + 1, state =>
    if state.calls.isEmpty then some (.ok () state)
    else
      match Action.step program settings state with
      | .ok () next => settle program settings fuel next
      | .error cause next => some (.error cause next)

/-- What is settled within some number of steps is settled in the same way within any greater one.
-/
theorem settle_mono {program : CompiledProgram} {settings : Settings} {fuel more : Nat}
    {state : State} {result : EStateM.Result RunError State Unit}
    (settled : settle program settings fuel state = some result) (enough : fuel ≤ more) :
    settle program settings more state = some result := by
  induction fuel generalizing more state with
  | zero =>
    cases more <;> simp_all [settle]
  | succ fuel inductionHypothesis =>
    obtain ⟨more, rfl⟩ := Nat.exists_eq_add_of_le' (Nat.lt_of_lt_of_le fuel.succ_pos enough)
    simp only [settle] at settled ⊢
    split at settled
    · next idle => simpa [idle] using settled
    · next busy =>
      simp only [busy]
      cases stepped : Action.step program settings state with
      | ok _ next =>
        rw [stepped] at settled
        exact inductionHypothesis settled (Nat.le_of_succ_le_succ enough)
      | error cause next =>
        rw [stepped] at settled
        exact settled

/-- The end of a run that an error stopped. -/
def fail (cause : RunError) (state : State) : Ending :=
  ⟨.error cause, state.report (.executionFailed cause state.calls.backtrace)⟩

/-- The end of a run whose start function returned. One value at most may be left, and it is the
value of the run. -/
def finish (state : State) : Ending :=
  match state.stack.values with
  | [] => ⟨.ok none, state.report (.executionFinished none)⟩
  | [value] =>
    let cleared := { state with stack := state.stack.clear }
    ⟨.ok (some value), cleared.report (.executionFinished (some value))⟩
  | values => ⟨.error (.unbalancedStack values.length), state⟩

/-- Make the frame of the global statements active, with the global table as its own. -/
def start (program : CompiledProgram) (main : FunctionEntry) (state : State) : State :=
  (state.report (.executionStarted program.code.size main.address program.initAddress)).enter
    ⟨globalOwner, .global, program.code.size⟩ program.initAddress

/-- Run a program, from whatever state an earlier run has left. -/
def execute (program : CompiledProgram) (settings : Settings) (fuel : Nat) (prior : State) :
    Option Ending :=
  match program.functions.find? entryPoint with
  | none => some ⟨.error .mainNotFound, prior.reset⟩
  | some main =>
    match settle program settings fuel (start program main prior.reset) with
    | none => none
    | some (.error cause state) => some (fail cause state)
    | some (.ok () initialised) =>
      match Action.call settings main program.code.size initialised with
      | .error cause state => some (fail cause state)
      | .ok () state =>
        match settle program settings fuel state with
        | none => none
        | some (.error cause state) => some (fail cause state)
        | some (.ok () state) => some (finish state)

end StackLang.Machine
