import StackLang.Proofs.FrameTables
import StackLang.Proofs.ProgramRun

/-!
# What a call depends on

A called function sees its arguments and the global variables. Of what lies below it, on the operand
stack, among the calls and in their tables, only the height and the depth can make a difference,
because both are limited. `completeCall` runs a call to its end, `Session.call_ends` shows that it
ends as the evaluation of the call does, and the evaluation is given nothing else.
-/

namespace StackLang

/-- Tables whose parents are those of nested calls are the tables of nested calls. -/
theorem Scopes.eq_nested {scopes : Scopes} {count : Nat}
    (parents_eq : scopes.parents = none :: List.replicate count (some .global)) :
    ∃ globals locals, scopes = .nested globals locals := by
  obtain ⟨⟨tables⟩⟩ := scopes
  cases tables with
  | nil => cases parents_eq
  | cons first rest =>
    obtain ⟨globals, parent⟩ := first
    obtain ⟨rfl, others⟩ := List.cons.inj parents_eq
    have each : ∀ table ∈ rest, (callTable ∘ SymbolTable.bindings) table = table := by
      intro table member
      have isChild : table.parent = some .global :=
        List.eq_of_mem_replicate (others ▸ List.mem_map_of_mem member)
      rw [Function.comp_apply, callTable, ← isChild]
    refine ⟨globals, rest.map SymbolTable.bindings, ?_⟩
    rw [nested, List.map_map, List.map_congr_left each, List.map_id']

namespace Machine

open Semantics Semantics.Bounded

/-- Carry out steps until no more than `depth` calls are active, or until an error. There is no
answer if that takes more than `fuel` steps. -/
def settleTo (program : CompiledProgram) (settings : Settings) (depth : Nat) :
    Nat → State → Option (EStateM.Result RunError State Unit)
  | 0, state => if state.calls.depth ≤ depth then some (.ok () state) else none
  | fuel + 1, state =>
    if state.calls.depth ≤ depth then some (.ok () state)
    else
      match Action.step program settings state with
      | .ok () next => settleTo program settings depth fuel next
      | .error cause next => some (.error cause next)

/-- Call a function and carry out steps until it has returned, or until an error. -/
def completeCall (program : CompiledProgram) (settings : Settings) (entry : FunctionEntry)
    (returnAddress fuel : Nat) (state : State) : Option (EStateM.Result RunError State Unit) :=
  match Action.call settings entry returnAddress state with
  | .ok () entered => settleTo program settings state.calls.depth fuel entered
  | .error cause next => some (.error cause next)

/-- To carry out steps until no call is active is to settle a run. -/
theorem settleTo_zero (program : CompiledProgram) (settings : Settings) (fuel : Nat)
    (state : State) :
    settleTo program settings 0 fuel state = settle program settings fuel state := by
  have idle (state : State) : state.calls.depth ≤ 0 ↔ state.calls.isEmpty = true := by
    rw [CallStack.depth, Nat.le_zero, List.length_eq_zero_iff, List.isEmpty_iff]
  induction fuel generalizing state with
  | zero => simp only [settleTo, settle, idle]
  | succ fuel inductionHypothesis =>
    simp only [settleTo, settle, idle]
    split
    · rfl
    · cases Action.step program settings state with
      | ok _ next => exact inductionHypothesis next
      | error cause next => rfl

/-- A walk that comes back to some depth only at its end is how the calls above it are settled. -/
theorem Walk.settleTo_eq {program : CompiledProgram} {settings : Settings} {Seen : State → Prop}
    {depth count fuel : Nat} {state : State} {result : EStateM.Result RunError State Unit}
    (walk : Walk program settings Seen count state result) (enough : count ≤ fuel)
    (deep : ∀ state, Seen state → depth < state.calls.depth)
    (back : ∀ final, result = .ok () final → final.calls.depth ≤ depth) :
    settleTo program settings depth fuel state = some result := by
  induction walk generalizing fuel with
  | rest state => cases fuel <;> simp only [settleTo, back state rfl, if_true]
  | stop seen _ failed =>
    obtain ⟨fuel, rfl⟩ := Nat.exists_eq_add_of_le' enough
    simp only [settleTo, Nat.not_le.mpr (deep _ seen), if_false, failed]
  | onward seen _ stepped _ inductionHypothesis =>
    obtain ⟨fuel, rfl⟩ := Nat.exists_eq_add_of_le' (Nat.le_of_add_left_le enough)
    simp only [settleTo, Nat.not_le.mpr (deep _ seen), if_false, stepped]
    exact inductionHypothesis (by omega) back

/-- More values than there are cannot be taken. -/
theorem Action.popMany_underflow {count : Nat} {state : State}
    (few : state.stack.values.length < count) :
    ∃ after, popMany count state = .error .stackUnderflow after := by
  induction count generalizing state with
  | zero => exact absurd few (Nat.not_lt_zero _)
  | succ count inductionHypothesis =>
    cases values_eq : state.stack.values with
    | nil =>
      have empty : state.stack = .empty state.stack.limit := OperandStack.ext rfl values_eq
      have unavailable : pop state = .error .stackUnderflow state := by
        rw [pop, empty]
        rfl
      exact ⟨state, bind_of_error unavailable⟩
    | cons value rest =>
      let popped : OperandStack := ⟨state.stack.limit, rest, rest.length, rfl⟩
      have taken : state.stack.pop = .ok (value, popped) := by
        rw [OperandStack.pop_eq_ok_iff]
        exact OperandStack.ext rfl values_eq
      have first : pop state = .ok value { state with stack := popped } := by
        simp only [pop, taken]
      have fewer : rest.length < count := by
        rw [values_eq, List.length_cons] at few
        omega
      obtain ⟨after, others⟩ := @inductionHypothesis { state with stack := popped } fewer
      refine ⟨after, ?_⟩
      rw [popMany, bind_of_ok first, bind_of_error others]

theorem stepCost_mono (size : Nat) {fewer more : Nat} (enough : fewer ≤ more) :
    stepCost size fewer ≤ stepCost size more := by
  induction fewer generalizing more with
  | zero => exact stepCost_pos size more
  | succ fewer inductionHypothesis =>
    obtain ⟨more, rfl⟩ := Nat.exists_eq_add_of_le' (Nat.le_of_add_left_le enough)
    have inner := inductionHypothesis (Nat.le_of_succ_le_succ enough)
    exact Nat.add_le_add_left (Nat.mul_le_mul_left size inner) 1

/-- A state that a machine can be in: its stack is within its limit, and the tables of its calls are
children of the global one. -/
structure Coherent (settings : Settings) (state : State) : Prop where
  limit_eq : state.stack.limit = settings.maxStackSize
  fits : state.stack.values.length ≤ settings.maxStackSize
  tables : ∃ count, state.scopes.parents = none :: List.replicate count (some .global)

/-- Whatever code a machine runs, its states are coherent. -/
theorem Passes.coherent {program : CompiledProgram} {settings : Settings} {prior state : State}
    {outer : CallStack} (rested : Rested program settings prior)
    (passes : Passes program settings prior outer state) (busy : state.calls ≠ []) :
    Coherent settings state := by
  obtain ⟨_, called, framed⟩ := passes.framed rested.limit_eq busy
  exact ⟨framed.limit_eq, framed.fits, called.length, framed.parents_eq⟩

theorem Coherent.globals_table {settings : Settings} {state : State}
    (coherent : Coherent settings state) :
    ∃ globals, state.scopes.table? .global = some ⟨globals, none⟩ := by
  obtain ⟨count, parents_eq⟩ := coherent.tables
  obtain ⟨globals, locals, scopes_eq⟩ := Scopes.eq_nested parents_eq
  exact ⟨globals, by rw [scopes_eq, Scopes.table?_nested_global]⟩

/-- All that a function with `arity` parameters can tell two states by is the same in both. -/
structure AlikeFor (arity : Nat) (first second : State) : Prop where
  height : first.stack.values.length = second.stack.values.length
  arguments : first.stack.values.take arity = second.stack.values.take arity
  depth : first.calls.depth = second.calls.depth
  globals : first.scopes.table? .global = second.scopes.table? .global

/-- How a call ends: with an error, or with its value, if it has one, and the global variables. -/
abbrev CallOutcome := Except RunError (Option Value × Bindings Value)

/-- The outcome of a call that is evaluated with a result. -/
def CallOutcome.ofEvaluation : EStateM.Result Fault Store (Option Value) → CallOutcome
  | .ok value store => .ok (value, store.globals)
  | .error fault _ => .error fault.cause

/-- A call has returned: its value stands in the place of its arguments, and the caller goes on. -/
structure CallReturned (function : FunctionDecl) (returnAddress : Nat) (value : Option Value)
    (globals : Bindings Value) (before after : State) : Prop where
  isSome_eq : value.isSome = function.returnsValue
  values_eq : after.stack.values = value.toList ++ before.stack.values.drop function.arity
  globals_eq : after.scopes.table? .global = some ⟨globals, none⟩
  calls_eq : after.calls = before.calls
  pc_eq : after.pc = returnAddress

/-- The result of running a call is the given outcome. -/
inductive CallEnds (function : FunctionDecl) (returnAddress : Nat) (before : State) :
    CallOutcome → EStateM.Result RunError State Unit → Prop where
  | failed (cause : RunError) (after : State) :
      CallEnds function returnAddress before (.error cause) (.error cause after)
  | returned {value : Option Value} {globals : Bindings Value} {after : State}
      (returned : CallReturned function returnAddress value globals before after) :
      CallEnds function returnAddress before (.ok (value, globals)) (.ok () after)

namespace Session

variable {session : Session} {name : String} {entry : FunctionEntry} {state : State}
  {globals : Bindings Value} {locals : List (Bindings Value)} {arguments below : List Value}

/-- A function that has been entered runs to its end as it is evaluated. -/
theorem entered_ends {returnAddress : Nat} {entered : State}
    (found : session.compiled.functions.find? name = some entry)
    (arity : entry.declaration.arity = arguments.length)
    (values_eq : state.stack.values = arguments.reverse ++ below)
    (shown : (Activation.ofCall session entry.declaration returnAddress state.calls locals
      below).Shows entry.address below
      ⟨globals, some (parameterBindings entry.declaration.parameters arguments)⟩ entered) :
    ∃ ended,
      (∀ fuel, stepBound session.compiled session.settings.maxCallDepth ≤ fuel →
        settleTo session.compiled session.settings state.calls.depth fuel entered = some ended) ∧
      CallEnds entry.declaration returnAddress state
        (.ofEvaluation (runFunction session.types session.limit
          (session.callee (session.settings.maxCallDepth - (state.calls.depth + 1))) below.length
          entry.declaration arguments ⟨globals, none⟩)) ended := by
  let activation :=
    Activation.ofCall session entry.declaration returnAddress state.calls locals below
  have bound : session.compiled.code.size * session.cost activation.remaining ≤
      stepBound session.compiled session.settings.maxCallDepth := by
    apply Nat.mul_le_mul_left
    apply stepCost_mono
    apply Nat.sub_le_sub_left
    exact Nat.le_add_left 1 state.calls.length
  -- The frame of the call is active in every state of its body, so the walk does not come back to
  -- the depth of the caller before the call returns.
  have deep : ∀ between, activation.Sees between → state.calls.depth < between.calls.depth :=
    fun between seen => seen.calls.length_le
  have body : activation.Simulates session.compiled.code.size entered
      (evalStmts session.types session.limit
        (session.callee (session.settings.maxCallDepth - (state.calls.depth + 1))) below.length
        entry.declaration.body) _ _ :=
    body_runs (session.callsSimulated activation.remaining) rfl found shown
  unfold Activation.Simulates at body
  rw [runFunction_apply]
  cases evaluated : evalStmts session.types session.limit
      (session.callee (session.settings.maxCallDepth - (state.calls.depth + 1))) below.length
      entry.declaration.body
      ⟨globals, some (parameterBindings entry.declaration.parameters arguments)⟩ with
  | ok flow after =>
    rw [evaluated] at body
    obtain ⟨count, next, within, walk, isSome, left⟩ := body
    refine ⟨.ok () next, fun fuel enough => ?_, .returned ?_⟩
    · refine walk.settleTo_eq (by omega) deep ?_
      rintro final ⟨⟩
      exact Nat.le_of_eq (congrArg List.length left.calls_eq)
    · exact {
        isSome_eq := isSome
        values_eq := by
          rw [left.values_eq, values_eq, arity, ← List.length_reverse, List.drop_left]
          rfl
        globals_eq := by rw [left.scopes_eq, Scopes.table?_nested_global]
        calls_eq := left.calls_eq
        pc_eq := left.pc_eq }
  | error fault after =>
    rw [evaluated] at body
    obtain ⟨count, next, within, walk, _⟩ := body
    refine ⟨.error fault.cause next, fun fuel enough => ?_, .failed fault.cause next⟩
    exact walk.settleTo_eq (by omega) deep fun _ impossible => nomatch impossible

/-- A call that is not too deep and finds its arguments ends as it is evaluated. -/
theorem permitted_call_ends (found : session.compiled.functions.find? name = some entry)
    (shallow : state.calls.depth < session.settings.maxCallDepth)
    (limit_eq : state.stack.limit = session.limit)
    (fits : state.stack.values.length ≤ session.limit)
    (scopes_eq : state.scopes = .nested globals locals)
    (arity : entry.declaration.arity = arguments.length)
    (values_eq : state.stack.values = arguments.reverse ++ below) (returnAddress : Nat) :
    ∃ ended,
      (∀ fuel, stepBound session.compiled session.settings.maxCallDepth ≤ fuel →
        completeCall session.compiled session.settings entry returnAddress fuel state =
          some ended) ∧
      CallEnds entry.declaration returnAddress state
        (.ofEvaluation (runFunction session.types session.limit
          (session.callee (session.settings.maxCallDepth - (state.calls.depth + 1))) below.length
          entry.declaration arguments ⟨globals, none⟩)) ended := by
  have belowFits : below.length ≤ session.limit := by
    rw [values_eq, List.length_append] at fits
    omega
  have stored : state.scopes = .ofStore locals ⟨globals, none⟩ := by
    rw [scopes_eq, Scopes.ofStore, Option.toList_none, List.append_nil]
  obtain ⟨entered, called, shown⟩ := @call_enters session entry returnAddress state
    ⟨globals, none⟩ locals arguments below shallow arity limit_eq values_eq belowFits stored
  obtain ⟨ended, settled, ends⟩ := entered_ends found arity values_eq shown
  refine ⟨ended, fun fuel enough => ?_, ends⟩
  rw [completeCall, called]
  exact settled fuel enough

theorem call_tooDeep (deep : session.settings.maxCallDepth ≤ state.calls.depth)
    (entry : FunctionEntry) (returnAddress : Nat) :
    Action.call session.settings entry returnAddress state =
      .error (.recursionTooDeep session.settings.maxCallDepth) state := by
  simp only [Action.call, Action.bind_get]
  rw [if_pos deep, Action.throw_apply]

theorem call_underflows (shallow : ¬ session.settings.maxCallDepth ≤ state.calls.depth)
    (few : state.stack.values.length < entry.declaration.arity) (returnAddress : Nat) :
    ∃ after, Action.call session.settings entry returnAddress state =
      .error .stackUnderflow after := by
  obtain ⟨after, popped⟩ := Action.popMany_underflow few
  refine ⟨after, ?_⟩
  simp only [Action.call, Action.bind_get]
  rw [if_neg shallow, Action.bind_of_error popped]

/-- The outcome of a call above the given number of calls, with the given number of values on the
stack and `top` as the values that the function takes from it. -/
def callOutcome (session : Session) (function : FunctionDecl) (depth height : Nat)
    (top : List Value) (globals : Bindings Value) : CallOutcome :=
  if session.settings.maxCallDepth ≤ depth then
    .error (.recursionTooDeep session.settings.maxCallDepth)
  else if height < function.arity then .error .stackUnderflow
  else
    .ofEvaluation (runFunction session.types session.limit
      (session.callee (session.settings.maxCallDepth - (depth + 1))) (height - function.arity)
      function top.reverse ⟨globals, none⟩)

/-- A call ends with an outcome that is computed from the global variables, its arguments, the
height of the stack and the number of active calls. -/
theorem call_ends (found : session.compiled.functions.find? name = some entry)
    (limit_eq : session.limit = session.settings.maxStackSize)
    (coherent : Coherent session.settings state)
    (globals_eq : state.scopes.table? .global = some ⟨globals, none⟩) (returnAddress : Nat) :
    ∃ ended,
      (∀ fuel, stepBound session.compiled session.settings.maxCallDepth ≤ fuel →
        completeCall session.compiled session.settings entry returnAddress fuel state =
          some ended) ∧
      CallEnds entry.declaration returnAddress state
        (session.callOutcome entry.declaration state.calls.depth state.stack.values.length
          (state.stack.values.take entry.declaration.arity) globals) ended := by
  unfold callOutcome
  split
  · next deep =>
    refine ⟨_, fun fuel _ => ?_, .failed _ state⟩
    rw [completeCall, call_tooDeep deep]
  · next shallow =>
    split
    · next few =>
      obtain ⟨after, failed⟩ := call_underflows shallow few returnAddress
      refine ⟨_, fun fuel _ => ?_, .failed _ after⟩
      rw [completeCall, failed]
    · next enough =>
      obtain ⟨count, parents_eq⟩ := coherent.tables
      obtain ⟨sameGlobals, locals, scopes_eq⟩ := Scopes.eq_nested parents_eq
      rw [scopes_eq, Scopes.table?_nested_global] at globals_eq
      cases globals_eq
      have arity : entry.declaration.arity =
          (state.stack.values.take entry.declaration.arity).reverse.length := by
        rw [List.length_reverse, List.length_take, Nat.min_eq_left (Nat.not_lt.mp enough)]
      have values_eq : state.stack.values =
          (state.stack.values.take entry.declaration.arity).reverse.reverse ++
            state.stack.values.drop entry.declaration.arity := by
        rw [List.reverse_reverse, List.take_append_drop]
      rw [← List.length_drop]
      exact permitted_call_ends found (Nat.not_le.mp shallow)
        (coherent.limit_eq.trans limit_eq.symm) (limit_eq ▸ coherent.fits) scopes_eq arity
        values_eq returnAddress

end Session

/-- Two calls of a function that differ only in what lies below them end alike, whatever their
callers are, hold in their variables and keep on the stack. -/
theorem calls_do_not_interfere {program : Program} {compiled : CompiledProgram}
    (accepted : program.compile = .ok compiled) (addressable : compiled.Addressable)
    {name : String} {function : FunctionDecl} (declared : program.function? name = some function)
    (settings : Settings) :
    ∃ entry, compiled.functions.find? name = some entry ∧ entry.declaration = function ∧
      ∀ (first second : State) (firstReturn secondReturn : Nat), Coherent settings first →
        Coherent settings second → AlikeFor function.arity first second →
        ∃ outcome firstEnd secondEnd,
          (∀ fuel, stepBound compiled settings.maxCallDepth ≤ fuel →
            completeCall compiled settings entry firstReturn fuel first = some firstEnd ∧
            completeCall compiled settings entry secondReturn fuel second = some secondEnd) ∧
          CallEnds function firstReturn first outcome firstEnd ∧
          CallEnds function secondReturn second outcome secondEnd := by
  obtain ⟨types, placed⟩ := Program.placed_of_compile accepted
  let session : Session :=
    ⟨program, types, compiled, settings, settings.maxStackSize, placed, addressable⟩
  obtain ⟨entry, found, rfl⟩ := @Session.find?_eq_some session name function declared
  refine ⟨entry, found, rfl, ?_⟩
  intro first second firstReturn secondReturn firstCoherent secondCoherent alike
  obtain ⟨globals, globals_eq⟩ := firstCoherent.globals_table
  obtain ⟨firstEnd, firstEnds, firstOutcome⟩ :=
    @Session.call_ends session name entry first globals found rfl firstCoherent globals_eq
      firstReturn
  obtain ⟨secondEnd, secondEnds, secondOutcome⟩ :=
    @Session.call_ends session name entry second globals found rfl secondCoherent
      (alike.globals ▸ globals_eq) secondReturn
  rw [← alike.depth, ← alike.height, ← alike.arguments] at secondOutcome
  exact ⟨_, firstEnd, secondEnd, fun fuel enough => ⟨firstEnds fuel enough, secondEnds fuel enough⟩,
    firstOutcome, secondOutcome⟩

/-- A program with a function that counts in a global variable. -/
def counting : Program where
  items := [
    .global (.declaration "Int" "count" (some (.literal (.int 1)))),
    .function {
      name := "add"
      returnType := "Int"
      parameters := [⟨"Int", "n"⟩]
      body := [
        .assignment (.identifier "count")
          (.binary (.evaluated .add) (.identifier "count") (.identifier "n")),
        .returning (some (.identifier "count"))] },
    .function { name := "main", returnType := "void", parameters := [], body := [] }]

/-- A state in which the global statements are about to call `add` with two. -/
def plainCaller : State where
  stack := ⟨4096, [.int 2, .int 7], 2, rfl⟩
  calls := [⟨globalOwner, .global, 9⟩]
  scopes := .nested (.ofList [("count", .int 1)]) []

/-- A state in which a function with a variable of its own called `count` is about to do so. -/
def shadowingCaller : State where
  stack := ⟨4096, [.int 2, .string "kept"], 2, rfl⟩
  calls := [⟨"caller", ⟨1⟩, 4⟩]
  scopes := .nested (.ofList [("count", .int 1)]) [.ofList [("count", .bool true)]]

/-- The function `add` counts in the global variable, whatever variables its callers have. -/
theorem counting_calls_do_not_interfere :
    ∃ compiled entry, counting.compile = .ok compiled ∧ compiled.Addressable ∧
      counting.function? "add" = some entry.declaration ∧
      compiled.functions.find? "add" = some entry ∧
      Coherent {} plainCaller ∧ Coherent {} shadowingCaller ∧
      AlikeFor entry.declaration.arity plainCaller shadowingCaller ∧
      ∃ outcome plainEnd shadowingEnd,
        (∀ fuel, stepBound compiled 256 ≤ fuel →
          completeCall compiled {} entry 9 fuel plainCaller = some plainEnd ∧
          completeCall compiled {} entry 4 fuel shadowingCaller = some shadowingEnd) ∧
        CallEnds entry.declaration 9 plainCaller outcome plainEnd ∧
        CallEnds entry.declaration 4 shadowingCaller outcome shadowingEnd := by
  have accepted : counting.compile = .ok _ := rfl
  have plain : Coherent {} plainCaller := ⟨rfl, by decide, 0, rfl⟩
  have shadowing : Coherent {} shadowingCaller := ⟨rfl, by decide, 1, rfl⟩
  obtain ⟨entry, found, declaration_eq, alikeEnd⟩ :=
    calls_do_not_interfere accepted (by decide) (rfl : counting.function? "add" = some _) {}
  have alike : AlikeFor 1 plainCaller shadowingCaller := ⟨rfl, rfl, rfl, rfl⟩
  refine ⟨_, entry, accepted, by decide, ?_, found, plain, shadowing, ?_, ?_⟩
  · rw [declaration_eq]
    rfl
  · rw [declaration_eq]
    exact alike
  · rw [declaration_eq]
    exact alikeEnd plainCaller shadowingCaller 9 4 plain shadowing alike

end Machine

end StackLang
