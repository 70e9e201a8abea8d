import StackLang.Proofs.ProgramRun

/-!
# Calls are isolated

Calls share one operand stack, and a return does not cut it back. All the same a call in a run that
succeeds takes its arguments, leaves its value if its function has one, and changes nothing else of
its callers than global variables: the values below the arguments are never touched while the call
is active, and the calls and tables of the callers are as before when it has returned.
-/

namespace StackLang.Machine

open Semantics

/-- A call of a function, made in one state above the given values, has come back to another state
after a number of further steps. -/
structure CallIsolated (program : CompiledProgram) (settings : Settings) (function : FunctionDecl)
    (below : List Value) (before after : State) (steps : Nat) : Prop where
  reached : advance program settings (steps + 1) before = some after
  result : ∃ value : Option Value, value.isSome = function.returnsValue ∧
    after.stack.values = value.toList ++ below
  calls : after.calls = before.calls
  pc : after.pc = before.pc + 1
  tables : ∀ scope, scope ≠ .global → after.scopes.table? scope = before.scopes.table? scope
  /-- While the call is active, what lies below it stays where it is. -/
  during : ∀ count state, 0 < count → count ≤ steps →
    advance program settings count before = some state →
    below <:+ state.stack.values ∧ ∃ active, active ≠ [] ∧ state.calls = active ++ before.calls

theorem step_of_settle {program : CompiledProgram} {settings : Settings} {fuel : Nat}
    {state final : State} (busy : state.calls ≠ [])
    (settled : settle program settings fuel state = some (.ok () final)) :
    ∃ next, Action.step program settings state = .ok () next := by
  cases fuel with
  | zero => simp [settle, busy] at settled
  | succ fuel =>
    simp only [settle, List.isEmpty_iff, busy, if_false] at settled
    split at settled
    · next next stepped => exact ⟨next, stepped⟩
    · cases settled

/-- An instruction that calls a function and goes on names a function that is found, and calls
it. -/
theorem Action.call_of_step {program : CompiledProgram} {settings : Settings} {state next : State}
    {instruction : Instruction} (found : program.code[state.pc]? = some instruction)
    (calling : instruction.opcode = .callFunc)
    (stepped : step program settings state = .ok () next) :
    ∃ name entry, instruction.operand = .string name ∧
      program.functions.find? name = some entry ∧
      call settings entry (state.pc + 1) (fetched settings instruction state) = .ok () next := by
  rw [step_of_fetch found] at stepped
  simp only [perform, calling] at stepped
  cases operand : instruction.operand with
  | string name =>
    rw [operand, Value.asString, lift_ok_bind] at stepped
    cases declared : program.functions.find? name with
    | some entry =>
      simp only [declared, bind_get] at stepped
      exact ⟨name, entry, rfl, declared, stepped⟩
    | none =>
      simp only [declared] at stepped
      cases stepped
  | _ =>
    simp only [operand, Value.asString] at stepped
    cases stepped

namespace Activation

variable {session : Session} {activation : Activation session}

/-- An evaluation that is simulated from a state that is settled without an error has a result. -/
theorem Simulates.returns {α : Type} {budget fuel : Nat} {state final : State}
    {evaluation : Evaluation α} {store : Store} {post : α → Store → State → Prop}
    (simulated : activation.Simulates budget state evaluation store post)
    (settled : settle session.compiled session.settings fuel state = some (.ok () final)) :
    ∃ value after count next,
      Walk session.compiled session.settings activation.Sees count state (.ok () next) ∧
        post value after next := by
  unfold Simulates at simulated
  split at simulated
  · next value after _ =>
    obtain ⟨count, next, _, walk, reached⟩ := simulated
    exact ⟨value, after, count, next, walk, reached⟩
  · obtain ⟨count, next, _, walk, _⟩ := simulated
    cases settle_unique settled (walk.settle_error (Nat.le_refl count))

/-- A call that comes back is isolated. -/
theorem Shows.isolated {address steps : Nat} {values : List Value}
    {below : List Value} {store after : Store} {before inner next : State} {function : FunctionDecl}
    {result : Option Value}
    (shown : activation.Shows address values store before)
    (entered : Action.step session.compiled session.settings before = .ok () inner)
    (isSome : result.isSome = function.returnsValue)
    (walk : Walk session.compiled session.settings
      (activation.callee function address below store).Sees steps inner (.ok () next))
    (returned : (activation.callee function address below store).Returned result after next) :
    CallIsolated session.compiled session.settings function below before next steps where
  reached := by
    rw [advance_of_step shown.busy entered]
    exact walk.advance_eq
  result := ⟨result, isSome, returned.values_eq⟩
  calls := returned.calls_eq.trans shown.calls_eq.symm
  pc := by
    rw [returned.pc_eq, shown.pc_eq]
    rfl
  tables := by
    intro scope isLocal
    obtain ⟨index⟩ := scope
    cases index with
    | zero => exact absurd rfl isLocal
    | succ index =>
      rw [returned.scopes_eq, shown.scopes_eq, Scopes.ofStore, Scopes.table?_nested_succ,
        Scopes.table?_nested_succ]
      rfl
  during := by
    intro count state positive within advanced
    obtain ⟨count, rfl⟩ := Nat.exists_eq_add_one_of_ne_zero (Nat.ne_of_gt positive)
    rw [advance_of_step shown.busy entered] at advanced
    have seen := walk.seen_of_advance (Nat.lt_of_succ_le within) advanced
    obtain ⟨inside, grown⟩ := seen.calls
    refine ⟨seen.values, inside ++ [(activation.callee function address below store).frame], ?_, ?_⟩
    · simp
    · rw [← grown, shown.calls_eq, List.append_assoc]
      rfl

/-- A call of a declared function comes back if the run succeeds. -/
theorem Shows.comesBack {address fuel : Nat} {arguments below : List Value} {store : Store}
    {before final : State} {name tag : String} {entry : FunctionEntry}
    (shown : activation.Shows address (arguments.reverse ++ below) store before)
    (fetched : activation.Fetches address (.named .callFunc name tag))
    (takes : (session.context none).Takes name arguments.length)
    (found : session.compiled.functions.find? name = some entry)
    (settled : settle session.compiled session.settings fuel before = some (.ok () final)) :
    ∃ after steps, CallIsolated session.compiled session.settings entry.declaration below before
      after steps := by
  have deeper : 0 < activation.remaining := by
    apply Nat.pos_of_ne_zero
    intro exhausted
    have refused : activation.Simulates 1 before _ store fun (_ : Unit) _ _ => False :=
      shown.tooDeep fetched takes found exhausted
    obtain ⟨_, _, _, _, _, impossible⟩ := refused.returns settled
    exact impossible
  obtain ⟨inner, entered, shownInner⟩ :=
    shown.enters fetched found (arity_of_takes takes found) deeper
  let callee := activation.callee entry.declaration address below store
  have body := @Session.body_runs session callee name entry _ inner (session.callsSimulated _) rfl
    found shownInner
  have advanced : advance session.compiled session.settings 1 before = some inner :=
    advance_of_step shown.busy entered
  obtain ⟨less, _, settledInner⟩ := settle_of_advance advanced settled
  obtain ⟨flow, after, count, next, walk, isSome, returned⟩ := body.returns settledInner
  exact ⟨next, count, shown.isolated entered isSome walk returned⟩

end Activation

/-- A call of a declared function in a state that is settled without an error comes back and is
isolated. -/
theorem Session.Stationed.call_isolated {session : Session} {fuel : Nat} {before final : State}
    {instruction : Instruction} (stationed : session.Stationed before)
    (fetched : session.compiled.code[before.pc]? = some instruction)
    (calling : instruction.opcode = .callFunc)
    (settled : settle session.compiled session.settings fuel before = some (.ok () final)) :
    ∃ name function arguments below after steps,
      instruction.operand = .string name ∧ session.program.function? name = some function ∧
      arguments.length = function.arity ∧ before.stack.values = arguments ++ below ∧
      CallIsolated session.compiled session.settings function below before after steps := by
  obtain ⟨⟨activation, store, shown⟩, prepared⟩ := stationed
  obtain ⟨next, stepped⟩ := step_of_settle shown.busy settled
  obtain ⟨name, entry, operand, found, _⟩ := Action.call_of_step fetched calling stepped
  have named : instruction = .named .callFunc name instruction.tag := by
    rw [Instruction.named, ← calling, ← operand]
  rw [named] at fetched
  have arity := prepared name instruction.tag entry fetched found
  have declared : session.program.function? name = some entry.declaration := by
    rw [Program.function?, ← session.declaration_eq name, found]
    rfl
  obtain ⟨arguments, below, count, parts⟩ : ∃ arguments below : List Value,
      arguments.length = entry.declaration.arity ∧ before.stack.values = arguments ++ below :=
    ⟨_, _, List.length_take_of_le arity, (List.take_append_drop _ _).symm⟩
  have takes : (session.context none).Takes name arguments.reverse.length := by
    intro declaration here
    have same : some entry.declaration = some declaration := declared.symm.trans here
    cases same
    rw [List.length_reverse, count]
  rw [parts, ← List.reverse_reverse arguments] at shown
  obtain ⟨after, steps, isolated⟩ :=
    (shown.inStretch session.compiled.code.whole).comesBack (.ofWhole fetched) takes found settled
  exact ⟨name, entry.declaration, arguments, below, after, steps, operand, declared, count, parts,
    isolated⟩

/-- Every call that is made in a successful run of an accepted program comes back and is isolated,
however deep it is nested. -/
theorem calls_are_isolated {program : Program} {compiled : CompiledProgram}
    (accepted : program.compile = .ok compiled) (addressable : compiled.Addressable)
    {settings : Settings} {prior : State} {fuel : Nat} {ending : Ending} {value : Option Value}
    (ended : execute compiled settings fuel prior = some ending)
    (succeeded : ending.outcome = .ok value) {before : State}
    (visited : Visited compiled settings prior before) {instruction : Instruction}
    (fetched : compiled.code[before.pc]? = some instruction)
    (calling : instruction.opcode = .callFunc) :
    ∃ name function arguments below after steps,
      instruction.operand = .string name ∧ program.function? name = some function ∧
      arguments.length = function.arity ∧ before.stack.values = arguments ++ below ∧
      CallIsolated compiled settings function below before after steps := by
  obtain ⟨types, placed⟩ := Program.placed_of_compile accepted
  let session : Session :=
    ⟨program, types, compiled, settings, prior.stack.limit, placed, addressable⟩
  obtain ⟨begun, count, begins, advanced⟩ := visited
  obtain ⟨final, settled⟩ := settle_of_begins ended succeeded begins
  obtain ⟨less, _, settledBefore⟩ := settle_of_advance advanced settled
  obtain ⟨total, result, _, walk, left⟩ := @session.phase_walks prior begun rfl begins
  rcases walk.advance_cases (fun final arrived => (left final arrived).1) advanced with
    earlier | ⟨_, arrived⟩
  · have stationed := walk.seen_of_advance earlier advanced
    exact stationed.call_isolated fetched calling settledBefore
  · -- Behind the last instruction of a phase there is nothing to fetch.
    have outside : compiled.code[before.pc]? = none := by
      rw [(left before arrived).2]
      exact Array.getElem?_size
    rw [outside] at fetched
    cases fetched

/-- A program in whose global statements a function is called while an operand waits. -/
def doubled : Program where
  items := [
    .function {
      name := "double"
      returnType := "Int"
      parameters := [⟨"Int", "n"⟩]
      body := [.returning (some (.binary (.evaluated .add) (.identifier "n") (.identifier "n")))] },
    .global (.declaration "Int" "total" (some
      (.binary (.evaluated .add) (.literal (.int 1)) (.call "double" [.literal (.int 2)])))),
    .function {
      name := "main"
      returnType := "Int"
      parameters := []
      body := [.returning (some (.identifier "total"))] }]

/-- The call in `doubled` is isolated from the operand that waits below its argument. -/
theorem doubled_call_is_isolated :
    ∃ compiled ending before instruction, doubled.compile = .ok compiled ∧
      execute compiled {} 11 (.initial {}) = some ending ∧ ending.outcome.isOk ∧
      Visited compiled {} (.initial {}) before ∧
      compiled.code[before.pc]? = some instruction ∧ instruction.opcode = .callFunc ∧
      before.stack.values.length = 2 ∧
      ∃ name function arguments below after steps,
        instruction.operand = .string name ∧ doubled.function? name = some function ∧
        arguments.length = function.arity ∧ before.stack.values = arguments ++ below ∧
        CallIsolated compiled {} function below before after steps := by
  have accepted : doubled.compile = .ok _ := rfl
  have runs : ((doubled.compile.toOption.bind fun compiled =>
      execute compiled {} 11 (.initial {})).any fun ending => ending.outcome.isOk) = true := by
    decide +kernel
  rw [accepted, Except.toOption, Option.bind_some] at runs
  obtain ⟨ending, ended, isOk⟩ := (Option.any_eq_true _ _).mp runs
  obtain ⟨value, succeeded⟩ : ∃ value, ending.outcome = .ok value := by
    cases outcome : ending.outcome with
    | ok value => exact ⟨value, rfl⟩
    | error cause =>
      rw [outcome] at isOk
      cases isOk
  -- Two steps load the waiting operand and the argument, and the third is the call.
  refine ⟨_, ending, _, _, accepted, ended, isOk, ⟨_, 2, .initialiser rfl, rfl⟩, rfl, rfl, rfl, ?_⟩
  exact calls_are_isolated accepted (by decide) ended succeeded ⟨_, 2, .initialiser rfl, rfl⟩ rfl
    rfl

end StackLang.Machine
