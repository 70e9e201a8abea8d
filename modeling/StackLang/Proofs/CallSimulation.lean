import StackLang.Proofs.StatementSimulation

/-!
# The machine walks as calls are carried out

A call takes its arguments from the stack, binds them in a table of its own and runs the body of the
function above the values that waited. When the body returns, the caller is shown as before the call
but for the global variables, and the value of the call stands in the place of the arguments. Since
every call lowers the number of calls that may still become active, the machine walks as all calls
are evaluated (`Session.callsSimulated`).
-/

namespace StackLang.Machine

open Semantics Semantics.Bounded

/-- Values on top of the stack are taken in their order. -/
theorem Action.popMany_append {front values : List Value} {state : State}
    (values_eq : state.stack.values = front ++ values) :
    popMany front.length state =
      .ok front { state with stack := ⟨state.stack.limit, values, values.length, rfl⟩ } := by
  induction front generalizing state with
  | nil =>
    have same : state.stack = ⟨state.stack.limit, values, values.length, rfl⟩ :=
      OperandStack.ext rfl values_eq
    rw [List.length_nil, popMany, pure_apply, ← same]
  | cons value rest inductionHypothesis =>
    let popped : OperandStack := ⟨state.stack.limit, rest ++ values, (rest ++ values).length, rfl⟩
    have taken : state.stack.pop = .ok (value, popped) := by
      rw [OperandStack.pop_eq_ok_iff]
      exact OperandStack.ext rfl values_eq
    have first : pop state = .ok value { state with stack := popped } := by
      simp only [pop, taken]
    have others := @inductionHypothesis { state with stack := popped } rfl
    rw [List.length_cons, popMany, bind_of_ok first, bind_of_ok others, pure_apply]

/-- A fault in a called function is one in its caller, with the function among the active calls. -/
theorem Faulted.outward {frame : Frame} {calls : CallStack} {fault : Fault} {store : Store}
    {state : State} (faulted : Faulted (frame :: calls) fault store state) :
    Faulted calls ⟨fault.cause, frame.function :: fault.active⟩ store state where
  backtrace := by
    rw [faulted.backtrace]
    simp [CallStack.backtrace]
  globals := faulted.globals

/-- The activation of a function that is called above the given values. -/
def Activation.ofCall (session : Session) (function : FunctionDecl) (returnAddress : Nat)
    (callers : CallStack) (pending : List (Bindings Value)) (below : List Value) :
    Activation session where
  frame := ⟨function.name, ⟨pending.length + 1⟩, returnAddress⟩
  callers := callers
  pending := pending
  below := below
  stretch := session.compiled.code.whole

namespace Session

variable {session : Session}

/-- A call that is not too deep makes an activation of the function. -/
theorem call_enters {entry : FunctionEntry} {returnAddress : Nat} {state : State} {store : Store}
    {pending : List (Bindings Value)} {arguments values : List Value}
    (shallow : state.calls.length < session.settings.maxCallDepth)
    (arity : entry.declaration.arity = arguments.length)
    (limit_eq : state.stack.limit = session.limit)
    (values_eq : state.stack.values = arguments.reverse ++ values)
    (fits : values.length ≤ session.limit)
    (scopes_eq : state.scopes = .ofStore pending store) :
    ∃ next, Action.call session.settings entry returnAddress state = .ok () next ∧
      (Activation.ofCall session entry.declaration returnAddress state.calls
        (pending ++ store.locals.toList) values).Shows entry.address values
        { store with
          locals := some (parameterBindings entry.declaration.parameters arguments) } next := by
  have popped : Action.popMany entry.declaration.arity state = .ok arguments.reverse
      { state with stack := ⟨state.stack.limit, values, values.length, rfl⟩ } := by
    rw [arity, ← List.length_reverse]
    exact Action.popMany_append values_eq
  let frame : Frame := ⟨entry.declaration.name, state.scopes.nextId, returnAddress⟩
  let bound : State := { state with
    stack := ⟨state.stack.limit, values, values.length, rfl⟩
    scopes := bindParameters state.scopes.nextId entry.declaration.parameters arguments.reverse
      (state.scopes.createChild .global) }
  have called : Action.call session.settings entry returnAddress state = .ok ()
      ((bound.report (.called entry.declaration.name (state.calls.depth + 1))).enter frame
        entry.address) := by
    have permitted : ¬ session.settings.maxCallDepth ≤ state.calls.depth := Nat.not_le.mpr shallow
    simp only [Action.call, Action.bind_get]
    rw [if_neg permitted, Action.bind_of_ok popped]
    rfl
  have place : state.scopes.nextId = ⟨(pending ++ store.locals.toList).length + 1⟩ := by
    rw [scopes_eq, Scopes.nextId_ofStore]
  refine ⟨_, called, {
    pc_eq := rfl
    calls_eq := congrArg (fun scope => Frame.mk _ scope returnAddress :: state.calls) place
    limit_eq := limit_eq
    values_eq := rfl
    fits := fits
    above := List.suffix_rfl
    scopes_eq := ?_
    place_eq := rfl }⟩
  show bindParameters state.scopes.nextId _ _ _ = _
  rw [scopes_eq]
  exact Scopes.bindParameters_ofStore pending store arity

/-- The calls that can be found are those of declared functions. -/
theorem declaration_eq (name : String) :
    (session.compiled.functions.find? name).map FunctionEntry.declaration =
      session.program.functions.find? name :=
  session.placed.functions.declarations name

/-- The body of a function that is called runs until it returns. -/
theorem body_runs {activation : Activation session} {name : String} {entry : FunctionEntry}
    {store : Store} {state : State} (calls : session.CallsSimulated activation.remaining)
    (whole : activation.stretch = session.compiled.code.whole)
    (found : session.compiled.functions.find? name = some entry)
    (shown : activation.Shows entry.address activation.below store state) :
    activation.Simulates session.compiled.code.size state
      (evalStmts session.types session.limit (session.callee activation.remaining)
        activation.below.length entry.declaration.body) store
      fun flow after next => flow.value.isSome = entry.declaration.returnsValue ∧
        activation.Returned flow.value after next := by
  have accepted := session.placed.functions.accepted name entry found
  have placed := session.placed.functions.bodies name entry found
  have holds : activation.Holds entry.address
      ((session.context (some entry.declaration)).bodyCode entry.declaration.body) := by
    rw [Activation.Holds, whole]
    exact .ofWhole placed (by simp [BodyContext.bodyCode])
  exact @Activation.executesBody session activation (some entry.declaration) calls
    entry.declaration.body entry.address store state accepted.legal accepted.returns holds shown

end Session

namespace Activation

variable {session : Session} {activation : Activation session} {address : Nat}
  {arguments values : List Value} {store : Store} {state : State} {name tag : String}

/-- The activation of a function that is called at an address, above the given values. -/
def callee (activation : Activation session) (function : FunctionDecl) (address : Nat)
    (values : List Value) (store : Store) : Activation session :=
  .ofCall session function (address + 1) activation.calls
    (activation.pending ++ store.locals.toList) values

variable {entry : FunctionEntry}

theorem remaining_callee {remaining : Nat} (function : FunctionDecl)
    (deep : activation.remaining = remaining + 1) :
    (activation.callee function address values store).remaining = remaining := by
  have depth : (activation.callee function address values store).calls.length =
      activation.calls.length + 1 := rfl
  unfold Activation.remaining at deep ⊢
  omega

/-- Whatever holds in the states of a called function holds in the states of its caller. -/
theorem Sees.outward {function : FunctionDecl} {instruction : Instruction}
    (fetched : activation.Fetches address instruction) (above : activation.below <:+ values)
    (seen : (activation.callee function address values store).Sees state) :
    activation.Sees state where
  values := above.trans seen.values
  calls := (List.suffix_cons _ _).trans seen.calls
  stationed := seen.stationed
  occupied := .called seen.calls (Nat.lt_succ_of_le fetched.above) fetched.below

/-- A function that has returned leaves its caller as it was, but for the global variables. -/
theorem Shows.resumed {before next : State} {function : FunctionDecl} {result : Option Value}
    {after : Store} {below : List Value}
    (shown : activation.Shows address below store before) (above : activation.below <:+ values)
    (returned : (activation.callee function address values store).Returned result after next) :
    activation.Shows (address + 1) (result.toList ++ values)
      { after with locals := store.locals } next where
  pc_eq := returned.pc_eq
  calls_eq := returned.calls_eq
  limit_eq := returned.limit_eq
  values_eq := returned.values_eq
  fits := returned.fits
  above := above.trans (List.suffix_append _ _)
  scopes_eq := returned.scopes_eq
  place_eq := shown.place_eq

theorem perform_call {next : State}
    (found : session.compiled.functions.find? name = some entry) :
    Action.perform session.compiled session.settings (.named .callFunc name tag) next =
      Action.call session.settings entry next.pc next := by
  simp only [Action.perform, Instruction.named, Value.asString, Action.lift_ok_bind, found,
    Action.bind_get]

/-- A call of a declared function that is not too deep makes the function active. -/
theorem Shows.enters (shown : activation.Shows address (arguments.reverse ++ values) store state)
    (fetched : activation.Fetches address (.named .callFunc name tag))
    (found : session.compiled.functions.find? name = some entry)
    (arity : entry.declaration.arity = arguments.length) (deeper : 0 < activation.remaining) :
    ∃ next, Action.step session.compiled session.settings state = .ok () next ∧
      (activation.callee entry.declaration address values store).Shows entry.address values
        { store with
          locals := some (parameterBindings entry.declaration.parameters arguments) } next := by
  obtain ⟨one, shownOne, stepped⟩ := shown.fetch fetched
  have shallow : one.calls.length < session.settings.maxCallDepth := by
    unfold Activation.remaining at deeper
    rw [shownOne.calls_eq]
    omega
  have fits : values.length ≤ session.limit := by
    have whole := shown.fits
    rw [List.length_append] at whole
    omega
  obtain ⟨next, called, shownNext⟩ := @Session.call_enters session entry one.pc one store
    activation.pending arguments values shallow arity shownOne.limit_eq shownOne.values_eq fits
    shownOne.scopes_eq
  rw [stepped, perform_call found]
  refine ⟨next, called, ?_⟩
  rw [shownOne.pc_eq, shownOne.calls_eq] at shownNext
  exact shownNext

theorem arity_of_takes (takes : (session.context none).Takes name arguments.length)
    (found : session.compiled.functions.find? name = some entry) :
    entry.declaration.arity = arguments.length := by
  have declared := session.declaration_eq name
  rw [found] at declared
  exact takes entry.declaration declared.symm

/-- The arguments that a call takes are on the stack. -/
theorem prepared (takes : (session.context none).Takes name arguments.length) (called mark : String)
    (entry : FunctionEntry)
    (same : Instruction.named .callFunc name tag = .named .callFunc called mark)
    (found : session.compiled.functions.find? called = some entry) :
    entry.declaration.arity ≤ (arguments.reverse ++ values).length := by
  cases same
  rw [arity_of_takes takes found, List.length_append, List.length_reverse]
  exact Nat.le_add_right _ _

/-- A call that is refused leaves everything as it is. -/
theorem Shows.refused {cause : RunError} {α : Type} {post : α → Store → State → Prop}
    (shown : activation.Shows address (arguments.reverse ++ values) store state)
    (fetched : activation.Fetches address (.named .callFunc name tag))
    (takes : (session.context none).Takes name arguments.length)
    (fails : ∀ next, activation.Shows (address + 1) (arguments.reverse ++ values) store next →
      Action.perform session.compiled session.settings (.named .callFunc name tag) next =
        .error cause next) :
    activation.Simulates 1 state (throw { cause }) store post := by
  refine shown.step fetched (prepared takes) ?_
  intro next shownNext
  exact ⟨next, fails next shownNext, shownNext.faulted cause⟩

theorem Shows.undeclared {α : Type} {post : α → Store → State → Prop}
    (shown : activation.Shows address (arguments.reverse ++ values) store state)
    (fetched : activation.Fetches address (.named .callFunc name tag))
    (takes : (session.context none).Takes name arguments.length)
    (missing : session.compiled.functions.find? name = none) :
    activation.Simulates 1 state (throw { cause := .functionNotFound name }) store post := by
  refine shown.refused fetched takes fun next _ => ?_
  simp only [Action.perform, Instruction.named, Value.asString, Action.lift_ok_bind, missing,
    Action.throw_apply]

theorem Shows.tooDeep {α : Type} {post : α → Store → State → Prop}
    (shown : activation.Shows address (arguments.reverse ++ values) store state)
    (fetched : activation.Fetches address (.named .callFunc name tag))
    (takes : (session.context none).Takes name arguments.length)
    (found : session.compiled.functions.find? name = some entry)
    (exhausted : activation.remaining = 0) :
    activation.Simulates 1 state
      (throw { cause := .recursionTooDeep session.settings.maxCallDepth }) store post := by
  refine shown.refused fetched takes fun next shownNext => ?_
  have deep : session.settings.maxCallDepth ≤ next.calls.depth := by
    rw [shownNext.calls_eq]
    exact Nat.le_of_sub_eq_zero exhausted
  rw [perform_call found]
  simp only [Action.call, Action.bind_get]
  rw [if_pos deep, Action.throw_apply]

/-- A call of a declared function runs its body. -/
theorem Shows.runs {remaining : Nat} (calls : session.CallsSimulated remaining)
    (deep : activation.remaining = remaining + 1) (above : activation.below <:+ values)
    (shown : activation.Shows address (arguments.reverse ++ values) store state)
    (fetched : activation.Fetches address (.named .callFunc name tag))
    (takes : (session.context none).Takes name arguments.length)
    (found : session.compiled.functions.find? name = some entry) :
    activation.Simulates 1 state
      (runFunction session.types session.limit (session.callee remaining) values.length
        entry.declaration arguments) store
      fun result after next => result.isSome = entry.declaration.returnsValue ∧
        activation.Shows (address + 1) (result.toList ++ values) after next := by
  have sees := shown.sees fetched (prepared takes)
  obtain ⟨inner, entered, shownInner⟩ :=
    shown.enters fetched found (arity_of_takes takes found) (by omega)
  let callee := activation.callee entry.declaration address values store
  have innerRemaining : callee.remaining = remaining := remaining_callee entry.declaration deep
  have outward : ∀ state, callee.Sees state → activation.Sees state :=
    fun _ seen => seen.outward fetched above
  -- The step of the call and the steps of the body are what one instruction may cost.
  have cost : 1 * session.cost activation.remaining =
      1 + session.compiled.code.size * session.cost callee.remaining := by
    rw [deep, innerRemaining, Nat.one_mul]
    rfl
  have body := @Session.body_runs session callee name entry _ inner (innerRemaining ▸ calls) rfl
    found shownInner
  have height : callee.below.length = values.length := rfl
  rw [innerRemaining, height] at body
  unfold Simulates at body ⊢
  rw [runFunction_apply, cost]
  cases evaluated : evalStmts session.types session.limit (session.callee remaining)
      values.length entry.declaration.body
      ⟨store.globals, some (parameterBindings entry.declaration.parameters arguments)⟩ with
  | ok flow after =>
    rw [evaluated] at body
    obtain ⟨count, next, bounded, walk, isSome, returned⟩ := body
    refine ⟨count + 1, next, by omega, .onward sees shown.busy entered (walk.mono outward), ?_⟩
    exact ⟨isSome, shown.resumed above returned⟩
  | error fault after =>
    rw [evaluated] at body
    obtain ⟨count, next, bounded, walk, faulted⟩ := body
    refine ⟨count + 1, next, by omega, .onward sees shown.busy entered (walk.mono outward), ?_⟩
    exact faulted.outward

end Activation

namespace Session

variable {session : Session}

theorem find?_eq_none {name : String} (undeclared : session.program.functions.find? name = none) :
    session.compiled.functions.find? name = none := by
  have declared := session.declaration_eq name
  rw [undeclared] at declared
  exact Option.map_eq_none_iff.mp declared

theorem find?_eq_some {name : String} {function : FunctionDecl}
    (declared : session.program.functions.find? name = some function) :
    ∃ entry, session.compiled.functions.find? name = some entry ∧
      entry.declaration = function := by
  have same := session.declaration_eq name
  rw [declared] at same
  exact Option.map_eq_some_iff.mp same

theorem callHasValue_eq {name : String} {function : FunctionDecl}
    (declared : session.program.functions.find? name = some function) :
    (session.context none).callHasValue name = function.returnsValue := by
  simp only [BodyContext.callHasValue, Session.context, declared, Option.all_some]

/-- The machine walks as calls are evaluated, however many more may become active. -/
theorem callsSimulated (remaining : Nat) : session.CallsSimulated remaining := by
  -- The bodies of called functions make their calls with one fewer remaining.
  induction remaining with
  | zero =>
    intro activation name tag arguments values address store state exhausted fetched takes _ shown
    unfold Session.callee Bounded.invoke
    cases declared : session.program.functions.find? name with
    | none => exact shown.undeclared fetched takes (find?_eq_none declared)
    | some function =>
      obtain ⟨entry, found, rfl⟩ := find?_eq_some declared
      exact shown.tooDeep fetched takes found exhausted
  | succ remaining inductionHypothesis =>
    intro activation name tag arguments values address store state deep fetched takes above shown
    unfold Session.callee Bounded.invoke
    cases declared : session.program.functions.find? name with
    | none => exact shown.undeclared fetched takes (find?_eq_none declared)
    | some function =>
      obtain ⟨entry, found, rfl⟩ := find?_eq_some declared
      rw [callHasValue_eq declared]
      exact shown.runs inductionHypothesis deep above fetched takes found

end Session

end StackLang.Machine
