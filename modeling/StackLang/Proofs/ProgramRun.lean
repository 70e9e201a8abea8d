import StackLang.Proofs.CallSimulation

/-!
# Runs of compiled programs

A run goes through two phases, the global statements and the start function, and each is an
activation with no callers. Both walk as their evaluations go, so a run concludes as the evaluation
of the program does, within a number of steps that is known before (`Session.execute_concludes`).
-/

namespace StackLang.Machine

open Semantics Semantics.Bounded

/-- A run that ends within some number of steps ends in the same way within any greater one. -/
theorem execute_mono {program : CompiledProgram} {settings : Settings} {fuel more : Nat}
    {prior : State} {ending : Ending}
    (ended : execute program settings fuel prior = some ending) (enough : fuel ≤ more) :
    execute program settings more prior = some ending := by
  unfold execute at ended ⊢
  cases found : program.functions.find? entryPoint with
  | none =>
    rw [found] at ended
    exact ended
  | some main =>
    simp only [found] at ended ⊢
    cases first : settle program settings fuel (start program main prior.reset) with
    | none => simp [first] at ended
    | some initial =>
      rw [settle_mono first enough]
      rw [first] at ended
      cases initial with
      | error cause state => exact ended
      | ok _ initialised =>
        dsimp only at ended ⊢
        cases called : Action.call settings main program.code.size initialised with
        | error cause state =>
          rw [called] at ended
          exact ended
        | ok _ entered =>
          simp only [called] at ended ⊢
          cases second : settle program settings fuel entered with
          | none => simp [second] at ended
          | some result =>
            rw [settle_mono second enough]
            rw [second] at ended
            exact ended

/-- All runs that end, with whatever number of steps, end in the same way. -/
theorem execute_unique {program : CompiledProgram} {settings : Settings} {fuel more : Nat}
    {prior : State} {ending other : Ending}
    (ended : execute program settings fuel prior = some ending)
    (endedToo : execute program settings more prior = some other) : other = ending := by
  rcases Nat.le_total fuel more with enough | enough
  · exact Option.some.inj (endedToo.symm.trans (execute_mono ended enough))
  · exact Option.some.inj ((execute_mono endedToo enough).symm.trans ended)

/-- A number of steps that suffices for each phase of a run in which no more than `depth` calls are
active. -/
def stepBound (program : CompiledProgram) (depth : Nat) : Nat :=
  program.code.size * stepCost program.code.size (depth - 1)

namespace Activation

variable {session : Session} {α : Type}

/-- A phase of a run that starts in a state is settled as an evaluation with the given result is. -/
def Settles (activation : Activation session) (fuel : Nat) (state : State)
    (result : EStateM.Result Fault Store α) (post : α → Store → State → Prop) : Prop :=
  match result with
  | .ok value after => ∃ next, settle session.compiled session.settings fuel state =
      some (.ok () next) ∧ post value after next
  | .error fault after => ∃ next, settle session.compiled session.settings fuel state =
      some (.error fault.cause next) ∧ Faulted activation.calls fault after next

theorem Simulates.settles {activation : Activation session} {fuel : Nat} {state : State}
    {evaluation : Evaluation α} {store : Store} {post : α → Store → State → Prop}
    (simulated : activation.Simulates session.compiled.code.size state evaluation store post)
    (enough : session.compiled.code.size * session.cost activation.remaining ≤ fuel)
    (idle : ∀ value after next, post value after next → next.calls = []) :
    activation.Settles fuel state (evaluation store) post := by
  unfold Simulates at simulated
  cases evaluated : evaluation store with
  | ok value after =>
    rw [evaluated] at simulated
    obtain ⟨count, next, bounded, walk, reached⟩ := simulated
    have idleNext := idle value after next reached
    exact ⟨next, walk.settle_ok idleNext (Nat.le_trans bounded enough), reached⟩
  | error fault after =>
    rw [evaluated] at simulated
    obtain ⟨count, next, bounded, walk, faulted⟩ := simulated
    exact ⟨next, walk.settle_error (Nat.le_trans bounded enough), faulted⟩

/-- A phase of a run is walked through in stationed states until its last call is left. -/
theorem Simulates.walks {activation : Activation session} {state : State}
    {evaluation : Evaluation α} {store : Store} {post : α → Store → State → Prop}
    (simulated : activation.Simulates session.compiled.code.size state evaluation store post)
    (left : ∀ value after next, post value after next →
      next.calls = [] ∧ next.pc = session.compiled.code.size) :
    ∃ total result, total ≤ session.compiled.code.size * session.cost activation.remaining ∧
      Walk session.compiled session.settings session.Stationed total state result ∧
      ∀ final, result = .ok () final →
        final.calls = [] ∧ final.pc = session.compiled.code.size := by
  have stationed : ∀ state, activation.Sees state → session.Stationed state :=
    fun _ seen => seen.stationed
  unfold Simulates at simulated
  split at simulated
  · next value after _ =>
    obtain ⟨count, next, bounded, walk, reached⟩ := simulated
    refine ⟨count, _, bounded, walk.mono stationed, ?_⟩
    rintro final same
    cases same
    exact left value after next reached
  · obtain ⟨count, next, bounded, walk, _⟩ := simulated
    refine ⟨count, _, bounded, walk.mono stationed, ?_⟩
    rintro final impossible
    cases impossible

end Activation

namespace Session

variable (session : Session)

/-- The activation of the global statements. -/
def outermost : Activation session where
  frame := ⟨globalOwner, .global, session.compiled.code.size⟩
  callers := []
  pending := []
  below := []
  stretch := session.compiled.code.whole

/-- The activation of the start function. -/
def started (main : FunctionDecl) : Activation session :=
  .ofCall session main session.compiled.code.size [] [] []

variable {session}

theorem start_shows {main : FunctionEntry} {prior : State}
    (limit_eq : prior.stack.limit = session.limit) :
    session.outermost.Shows session.compiled.initAddress [] {}
      (start session.compiled main prior.reset) where
  pc_eq := rfl
  calls_eq := rfl
  limit_eq := limit_eq
  values_eq := rfl
  fits := Nat.zero_le _
  above := List.suffix_rfl
  scopes_eq := rfl
  place_eq := rfl

/-- The global statements run until their frame is left. -/
theorem initialiser_runs {main : FunctionEntry} {prior : State}
    (limit_eq : prior.stack.limit = session.limit) :
    session.outermost.Simulates session.compiled.code.size
      (start session.compiled main prior.reset)
      (evalStmts session.types session.limit
        (session.callee (session.settings.maxCallDepth - 1)) 0 session.program.globalStatements) {}
      fun _ after next => session.outermost.Returned none after next := by
  have shown := @start_shows session main prior limit_eq
  have ended := @Activation.executesBody session session.outermost none (callsSimulated _)
    session.program.globalStatements session.compiled.initAddress {} _ session.placed.initialLegal
    (fun impossible => nomatch impossible)
    (.ofWhole session.placed.initialiser (by simp [BodyContext.bodyCode])) shown
  refine ended.mono (Nat.le_refl _) ?_
  rintro flow after next ⟨isSome, returned⟩
  have noValue : flow.value = none := Option.not_isSome_iff_eq_none.mp (by simp [isSome])
  rwa [noValue] at returned

/-- When the code of the global statements has run to its end, so have the statements. -/
theorem initialiser_returned {main : FunctionEntry} {prior initialised : State} {fuel : Nat}
    (limit_eq : prior.stack.limit = session.limit)
    (settled : settle session.compiled session.settings fuel
      (start session.compiled main prior.reset) = some (.ok () initialised)) :
    ∃ flow after, evalStmts session.types session.limit
        (session.callee (session.settings.maxCallDepth - 1)) 0 session.program.globalStatements {} =
          .ok flow after ∧
      session.outermost.Returned none after initialised := by
  have runs : session.outermost.Settles _ (start session.compiled main prior.reset)
      (evalStmts session.types session.limit
        (session.callee (session.settings.maxCallDepth - 1)) 0
        session.program.globalStatements {}) _ :=
    (@initialiser_runs session main prior limit_eq).settles (Nat.le_refl _)
      fun _ _ _ returned => returned.calls_eq
  unfold Activation.Settles at runs
  split at runs
  · next flow after evaluated =>
    obtain ⟨next, reached, returned⟩ := runs
    cases settle_unique settled reached
    exact ⟨flow, after, evaluated, returned⟩
  · obtain ⟨next, failed, _⟩ := runs
    cases settle_unique settled failed

/-- The start function is entered when the global statements have run. -/
theorem main_enters {main : FunctionEntry} {after : Store} {state : State}
    (returned : session.outermost.Returned none after state)
    (permitted : session.settings.maxCallDepth ≠ 0) (arity : main.declaration.arity = 0) :
    ∃ next, Action.call session.settings main session.compiled.code.size state = .ok () next ∧
      (session.started main.declaration).Shows main.address []
        { after with locals := some (parameterBindings main.declaration.parameters []) } next := by
  have idle : state.calls = [] := returned.calls_eq
  have shallow : state.calls.length < session.settings.maxCallDepth := by
    rw [idle]
    exact Nat.pos_of_ne_zero permitted
  obtain ⟨next, called, shown⟩ := @call_enters session main session.compiled.code.size state
    ⟨after.globals, none⟩ [] [] [] shallow arity returned.limit_eq returned.values_eq
    (Nat.zero_le _) returned.scopes_eq
  rw [idle] at shown
  exact ⟨next, called, shown⟩

theorem main_refused {main : FunctionEntry} {state : State}
    (forbidden : session.settings.maxCallDepth = 0) :
    Action.call session.settings main session.compiled.code.size state =
      .error (.recursionTooDeep 0) state := by
  simp only [Action.call, Action.bind_get, forbidden, Nat.zero_le, if_true, Action.throw_apply]

/-- A start function with parameters finds no arguments. -/
theorem main_underflows {main : FunctionEntry} {after : Store} {state : State}
    (returned : session.outermost.Returned none after state)
    (permitted : session.settings.maxCallDepth ≠ 0) (arity : main.declaration.arity ≠ 0) :
    Action.call session.settings main session.compiled.code.size state =
      .error .stackUnderflow state := by
  have shallow : ¬ session.settings.maxCallDepth ≤ state.calls.depth := by
    rw [returned.calls_eq]
    exact fun deep => permitted (Nat.le_zero.mp deep)
  have empty : state.stack = .empty state.stack.limit :=
    OperandStack.ext rfl returned.values_eq
  have unavailable : Action.pop state = .error .stackUnderflow state := by
    rw [Action.pop, empty]
    rfl
  obtain ⟨fewer, more⟩ := Nat.exists_eq_add_one_of_ne_zero arity
  have failed : Action.popMany main.declaration.arity state = .error .stackUnderflow state := by
    rw [more, Action.popMany]
    exact Action.bind_of_error unavailable
  simp only [Action.call, Action.bind_get]
  rw [if_neg shallow, Action.bind_of_error failed]

/-- Each phase of a run is walked through in stationed states, and in a number of steps that is
known before. -/
theorem phase_walks {prior state : State} (limit_eq : prior.stack.limit = session.limit)
    (begins : Begins session.compiled session.settings prior state) :
    ∃ total result, total ≤ stepBound session.compiled session.settings.maxCallDepth ∧
      Walk session.compiled session.settings session.Stationed total state result ∧
      ∀ final, result = .ok () final →
        final.calls = [] ∧ final.pc = session.compiled.code.size := by
  cases begins with
  | initialiser found =>
    exact (initialiser_runs limit_eq).walks fun _ _ _ returned =>
      ⟨returned.calls_eq, returned.pc_eq⟩
  | @main entry fuel initialised _ found settled called =>
    obtain ⟨_, after, _, returned⟩ := initialiser_returned limit_eq settled
    have permitted : session.settings.maxCallDepth ≠ 0 := by
      intro forbidden
      rw [main_refused forbidden] at called
      cases called
    have arity : entry.declaration.arity = 0 := by
      by_cases none : entry.declaration.arity = 0
      · exact none
      · rw [main_underflows returned permitted none] at called
        cases called
    obtain ⟨entered, calledHere, shown⟩ := main_enters returned permitted arity
    rw [called] at calledHere
    cases calledHere
    have body := @body_runs session (session.started entry.declaration) entryPoint entry _ state
      (callsSimulated _) rfl found shown
    exact body.walks fun _ _ _ reached => ⟨reached.2.calls_eq, reached.2.pc_eq⟩

/-- How a run ends when the evaluation of its program has the given result. -/
def Concludes (session : Session) (ending : Ending) :
    EStateM.Result Fault Store (Option Value) → Prop
  | .ok value store => ending.outcome = .ok value ∧
      value.isSome = (session.program.function? entryPoint).any FunctionDecl.returnsValue ∧
      ending.state.calls = [] ∧ ending.state.stack.values = [] ∧
      ending.state.scopes = .nested store.globals []
  | .error fault store =>
    ending.outcome = .error fault.cause ∧ Faulted [] fault store ending.state

theorem Concludes.of_error {ending : Ending} {cause : RunError}
    {result : EStateM.Result Fault Store (Option Value)}
    (concludes : session.Concludes ending result) (failed : ending.outcome = .error cause) :
    ∃ active after, result = .error ⟨cause, active⟩ after := by
  cases result with
  | ok value after =>
    have succeeded := concludes.1
    rw [failed] at succeeded
    cases succeeded
  | error fault after =>
    have same := concludes.1
    rw [failed] at same
    cases same
    exact ⟨fault.active, after, rfl⟩

theorem Concludes.of_ok {ending : Ending} {value : Option Value}
    {result : EStateM.Result Fault Store (Option Value)}
    (concludes : session.Concludes ending result) (succeeded : ending.outcome = .ok value) :
    ∃ after, result = .ok value after := by
  cases result with
  | error fault after =>
    have failed := concludes.1
    rw [succeeded] at failed
    cases failed
  | ok result after =>
    have same := concludes.1
    rw [succeeded] at same
    cases same
    exact ⟨after, rfl⟩

theorem concludes_fail {fault : Fault} {store : Store} {state : State}
    (faulted : Faulted [] fault store state) :
    session.Concludes (fail fault.cause state) (.error fault store) :=
  ⟨rfl, faulted.backtrace, faulted.globals⟩

theorem concludes_finish {main : FunctionDecl} {value : Option Value} {after : Store}
    {state : State} (declared : session.program.functions.find? entryPoint = some main)
    (isSome : value.isSome = main.returnsValue)
    (returned : (session.started main).Returned value after state)
    (locals : Option (Bindings Value)) :
    session.Concludes (finish state) (.ok value { after with locals }) := by
  have left : state.stack.values = value.toList := by
    rw [returned.values_eq]
    exact List.append_nil _
  have agrees : value.isSome =
      (session.program.function? entryPoint).any FunctionDecl.returnsValue := by
    rw [Program.function?, declared]
    exact isSome
  cases value with
  | none =>
    have ended : finish state = ⟨.ok none, state.report (.executionFinished none)⟩ := by
      simp only [finish, left, Option.toList_none]
    rw [ended]
    exact ⟨rfl, agrees, returned.calls_eq, left, returned.scopes_eq⟩
  | some result =>
    have ended : finish state = ⟨.ok (some result),
        { state with stack := state.stack.clear }.report (.executionFinished (some result))⟩ := by
      simp only [finish, left, Option.toList_some]
    rw [ended]
    exact ⟨rfl, agrees, returned.calls_eq, rfl, returned.scopes_eq⟩

/-- Once the global statements have run, the rest of a run concludes as a run of the start function
does. -/
theorem main_concludes {fuel : Nat} {prior initialised : State} {entry : FunctionEntry}
    {after : Store}
    (enough : stepBound session.compiled session.settings.maxCallDepth ≤ fuel)
    (found : session.compiled.functions.find? entryPoint = some entry)
    (declared : session.program.functions.find? entryPoint = some entry.declaration)
    (settled : settle session.compiled session.settings fuel
      (start session.compiled entry prior.reset) = some (.ok () initialised))
    (returned : session.outermost.Returned none after initialised)
    (permitted : session.settings.maxCallDepth ≠ 0) (arity : entry.declaration.arity = 0) :
    ∃ ending, execute session.compiled session.settings fuel prior = some ending ∧
      session.Concludes ending (runFunction session.types session.limit
        (session.callee (session.settings.maxCallDepth - 1)) 0 entry.declaration [] after) := by
  obtain ⟨entered, called, shown⟩ := main_enters returned permitted arity
  have body : (session.started entry.declaration).Settles fuel entered
      (evalStmts session.types session.limit (session.callee (session.settings.maxCallDepth - 1)) 0
        entry.declaration.body
        ⟨after.globals, some (parameterBindings entry.declaration.parameters [])⟩) _ :=
    (@body_runs session (session.started entry.declaration) entryPoint entry _ entered
      (callsSimulated _) rfl found shown).settles enough fun _ _ _ reached => reached.2.calls_eq
  rw [runFunction_apply]
  cases evaluated : evalStmts session.types session.limit
      (session.callee (session.settings.maxCallDepth - 1)) 0 entry.declaration.body
      ⟨after.globals, some (parameterBindings entry.declaration.parameters [])⟩ with
  | ok flow final =>
    rw [evaluated] at body
    obtain ⟨next, finished, isSome, back⟩ := body
    refine ⟨finish next, ?_, concludes_finish declared isSome back after.locals⟩
    simp only [execute, found, settled, called, finished]
  | error fault final =>
    rw [evaluated] at body
    obtain ⟨next, failed, faulted⟩ := body
    refine ⟨fail fault.cause next, ?_, @concludes_fail session _ final next faulted.outward⟩
    simp only [execute, found, settled, called, failed]

/-- A run whose start function cannot be entered concludes with the reason. -/
theorem refusal_concludes {fuel : Nat} {prior initialised : State} {entry : FunctionEntry}
    {after : Store} {cause : RunError}
    (found : session.compiled.functions.find? entryPoint = some entry)
    (settled : settle session.compiled session.settings fuel
      (start session.compiled entry prior.reset) = some (.ok () initialised))
    (returned : session.outermost.Returned none after initialised)
    (refused : Action.call session.settings entry session.compiled.code.size initialised =
      .error cause initialised) :
    ∃ ending, execute session.compiled session.settings fuel prior = some ending ∧
      session.Concludes ending (.error { cause } after) := by
  have faulted : Faulted [] { cause } after initialised := {
    backtrace := by
      rw [returned.calls_eq]
      rfl
    globals := by
      rw [returned.scopes_eq]
      exact Scopes.table?_nested_global _ _ }
  refine ⟨fail cause initialised, ?_, concludes_fail faulted⟩
  simp only [execute, found, settled, refused]

/-- A run without a start function concludes at once. -/
theorem missing_concludes {fuel : Nat} {prior : State}
    (missing : session.program.functions.find? entryPoint = none) :
    ∃ ending, execute session.compiled session.settings fuel prior = some ending ∧
      session.Concludes ending
        (evalProgram session.program session.types session.settings session.limit {}) := by
  have evaluated : evalProgram session.program session.types session.settings session.limit {} =
      .error { cause := .mainNotFound } {} := by
    simp only [Bounded.evalProgram, missing]
    rfl
  rw [evaluated]
  refine ⟨⟨.error .mainNotFound, prior.reset⟩, ?_, rfl, rfl, rfl⟩
  simp only [execute, find?_eq_none missing]

theorem execute_concludes_within {fuel : Nat} {prior : State}
    (limit_eq : prior.stack.limit = session.limit)
    (enough : stepBound session.compiled session.settings.maxCallDepth ≤ fuel) :
    ∃ ending, execute session.compiled session.settings fuel prior = some ending ∧
      session.Concludes ending
        (evalProgram session.program session.types session.settings session.limit {}) := by
  cases declared : session.program.functions.find? entryPoint with
  | none => exact missing_concludes declared
  | some main =>
    obtain ⟨entry, found, rfl⟩ := find?_eq_some declared
    have initialiser : session.outermost.Settles fuel (start session.compiled entry prior.reset)
        (evalStmts session.types session.limit
          (session.callee (session.settings.maxCallDepth - 1)) 0
          session.program.globalStatements {}) _ :=
      (@initialiser_runs session entry prior limit_eq).settles enough
        fun _ _ _ returned => returned.calls_eq
    have callee : Bounded.invoke session.program.functions session.types session.settings
        session.limit (session.settings.maxCallDepth - 1) =
          session.callee (session.settings.maxCallDepth - 1) := rfl
    rw [evalProgram_apply declared, callee]
    cases evaluated : evalStmts session.types session.limit
        (session.callee (session.settings.maxCallDepth - 1)) 0
        session.program.globalStatements {} with
    | error fault after =>
      rw [evaluated] at initialiser
      obtain ⟨stopped, failed, faulted⟩ := initialiser
      refine ⟨fail fault.cause stopped, ?_, @concludes_fail session _ after stopped faulted.outward⟩
      simp only [execute, found, failed]
    | ok flow after =>
      rw [evaluated] at initialiser
      obtain ⟨initialised, settled, returned⟩ := initialiser
      dsimp only
      split
      · next forbidden =>
        exact refusal_concludes found settled returned (main_refused forbidden)
      · next permitted =>
        split
        · next parameters =>
          exact refusal_concludes found settled returned
            (main_underflows returned permitted parameters)
        · next noParameters =>
          exact main_concludes enough found declared settled returned permitted
            (Decidable.of_not_not noParameters)

/-- A run concludes as the bounded evaluation of its program does. -/
theorem execute_concludes (session : Session) {prior : State}
    (limit_eq : prior.stack.limit = session.limit) :
    ∃ ending,
      (∀ fuel, stepBound session.compiled session.settings.maxCallDepth ≤ fuel →
        execute session.compiled session.settings fuel prior = some ending) ∧
      session.Concludes ending
        (evalProgram session.program session.types session.settings session.limit {}) := by
  obtain ⟨ending, ended, concludes⟩ := execute_concludes_within limit_eq (Nat.le_refl _)
  exact ⟨ending, fun fuel enough => execute_mono ended enough, concludes⟩

end Session

end StackLang.Machine
