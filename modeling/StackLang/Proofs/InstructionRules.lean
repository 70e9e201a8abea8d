import StackLang.Proofs.Activation

/-!
# One rule for every instruction

Each rule says which evaluation an instruction carries out in a state that an activation shows, and
what is shown afterwards. An instruction that fails leaves calls and tables as they are, so the
fault it stands for is one in the call itself.
-/

namespace StackLang.Machine

theorem saturate_natCast {target : Nat} (short : target ≤ Int64.maxValue.toInt) :
    saturate target = target := by
  have lower : Int64.minValue.toInt ≤ (target : Int) :=
    Int.le_trans (by decide) (Int.natCast_nonneg target)
  exact Int64.toInt_ofIntClamp lower short

/-- Moving the program counter forwards within the code arrives where it is meant to. -/
theorem Action.jump_eq_ok {program : CompiledProgram} {state : State} {count : Nat}
    (addressable : program.Addressable) (inside : state.pc + count < program.code.size) :
    jump program (.int (Int64.ofNat count)) state =
      .ok () { state with pc := state.pc + count } := by
  have short : program.code.size ≤ Int64.maxValue.toInt := addressable
  have greatest : Int64.maxValue.toInt = 9223372036854775807 := rfl
  have target : saturate ((state.pc : Int) + (Int64.ofNat count).toInt) =
      (state.pc + count : Nat) := by
    rw [Int64.toInt_ofNat_of_lt (by omega), ← Int.natCast_add, saturate_natCast (by omega)]
  have valid : ¬ ((state.pc + count : Nat) < (0 : Int) ∨
      (program.code.size : Int) ≤ (state.pc + count : Nat)) := by
    omega
  simp only [jump, Value.asInt, lift_ok_bind, bind_get, target, if_neg valid, set_apply,
    Int.toNat_natCast]

namespace Activation

open Semantics Semantics.Bounded

variable {session : Session} {activation : Activation session} {address : Nat}
  {values : List Value} {store : Store} {state : State}

namespace Shows

/-- An error that stops the call is a fault in it. -/
theorem faulted (shown : activation.Shows address values store state) (cause : RunError) :
    Faulted activation.calls { cause } store state where
  backtrace := by rw [shown.calls_eq, List.append_nil]
  globals := by rw [shown.scopes_eq, Scopes.ofStore, Scopes.table?_nested_global]

theorem currentScope (shown : activation.Shows address values store state) :
    state.currentScope = store.place activation.pending := by
  rw [shown.place_eq, State.currentScope, shown.calls_eq]
  rfl

theorem resolve (shown : activation.Shows address values store state) (name : String) :
    state.scopes.resolve state.currentScope name = some (store.read name) := by
  rw [shown.scopes_eq, shown.currentScope, Scopes.resolve_ofStore]

theorem pop {value : Value} (shown : activation.Shows address (value :: values) store state)
    (above : activation.below <:+ values) :
    ∃ next, Action.pop state = .ok value next ∧ activation.Shows address values store next := by
  let rest : OperandStack := ⟨session.limit, values, values.length, rfl⟩
  have popped : state.stack.pop = .ok (value, rest) := by
    rw [OperandStack.pop_eq_ok_iff]
    exact OperandStack.ext shown.limit_eq shown.values_eq
  refine ⟨{ state with stack := rest }, by simp [Action.pop, popped], ?_⟩
  exact { shown with
    limit_eq := rfl
    values_eq := rfl
    fits := Nat.le_of_succ_le shown.fits
    above := above }

theorem push (shown : activation.Shows address values store state) (value : Value)
    (room : values.length < session.limit) :
    ∃ next, Action.push value state = .ok () next ∧
      activation.Shows address (value :: values) store next := by
  have size : state.stack.size = values.length := by
    rw [state.stack.size_eq, shown.values_eq]
  have pushed : state.stack.push value = .ok (state.stack.cons value) := by
    rw [OperandStack.push_eq_ok_iff, size, shown.limit_eq]
    exact ⟨room, rfl⟩
  refine ⟨{ state with stack := state.stack.cons value }, by simp [Action.push, pushed], ?_⟩
  exact { shown with
    values_eq := congrArg (value :: ·) shown.values_eq
    fits := room
    above := shown.above.trans (List.suffix_cons value values) }

theorem push_full (shown : activation.Shows address values store state) (value : Value)
    (full : session.limit ≤ values.length) :
    Action.push value state = .error (.stackOverflow session.limit) state := by
  have size : state.stack.size = values.length := by
    rw [state.stack.size_eq, shown.values_eq]
  simp [Action.push, OperandStack.push, size, shown.limit_eq, full]

end Shows

/-- The outcome of an instruction that carries out an evaluation. -/
def Performs {α : Type} (activation : Activation session)
    (outcome : EStateM.Result RunError State Unit) (result : EStateM.Result Fault Store α)
    (post : α → Store → State → Prop) : Prop :=
  match result with
  | .ok value after => ∃ next, outcome = .ok () next ∧ post value after next
  | .error fault after => ∃ next, outcome = .error fault.cause next ∧
      Faulted activation.calls fault after next

/-- Fetching an instruction moves the program counter behind it. -/
theorem Shows.fetch (shown : activation.Shows address values store state)
    {instruction : Instruction}
    (fetched : activation.Fetches address instruction) :
    ∃ next, activation.Shows (address + 1) values store next ∧
      Action.step session.compiled session.settings state =
        Action.perform session.compiled session.settings instruction next := by
  refine ⟨Action.fetched session.settings instruction state, ?_, ?_⟩
  · unfold Action.fetched
    split <;> exact { shown with pc_eq := congrArg (· + 1) shown.pc_eq }
  · exact Action.step_of_fetch (shown.pc_eq ▸ fetched.fetched)

theorem Shows.busy (shown : activation.Shows address values store state) : state.calls ≠ [] := by
  rw [shown.calls_eq]
  exact List.cons_ne_nil _ _

/-- A state that the call shows is one of its states. -/
theorem Shows.sees (shown : activation.Shows address values store state)
    {instruction : Instruction}
    (fetched : activation.Fetches address instruction)
    (prepared : ∀ name tag entry, instruction = .named .callFunc name tag →
      session.compiled.functions.find? name = some entry →
      entry.declaration.arity ≤ values.length) : activation.Sees state := by
  refine ⟨shown.values_eq ▸ shown.above, shown.calls_eq ▸ List.suffix_rfl, ⟨?_, ?_⟩, ?_⟩
  · refine ⟨activation, store, ?_⟩
    rw [shown.pc_eq, shown.values_eq]
    exact shown
  · intro name tag entry found declared
    rw [shown.pc_eq, fetched.fetched] at found
    rw [shown.values_eq]
    exact prepared name tag entry (Option.some.inj found) declared
  · exact .inside shown.calls_eq (shown.pc_eq ▸ fetched.above) (shown.pc_eq ▸ fetched.below)

/-- A step of a call carries out the evaluation that its instruction performs. -/
theorem Shows.step {α : Type} (shown : activation.Shows address values store state)
    {instruction : Instruction} {evaluation : Evaluation α} {post : α → Store → State → Prop}
    (fetched : activation.Fetches address instruction)
    (prepared : ∀ name tag entry, instruction = .named .callFunc name tag →
      session.compiled.functions.find? name = some entry →
      entry.declaration.arity ≤ values.length)
    (performs : ∀ next, activation.Shows (address + 1) values store next →
      activation.Performs
        (Action.perform session.compiled session.settings instruction next) (evaluation store)
        post) :
    activation.Simulates 1 state evaluation store post := by
  obtain ⟨next, shownNext, stepped⟩ := shown.fetch fetched
  have outcome := performs next shownNext
  rw [← stepped] at outcome
  have sees := shown.sees fetched prepared
  have cost : 1 ≤ 1 * session.cost activation.remaining := by
    rw [Nat.one_mul]
    exact stepCost_pos _ _
  unfold Performs at outcome
  unfold Simulates
  cases evaluated : evaluation store with
  | ok value after =>
    rw [evaluated] at outcome
    obtain ⟨final, went, holds⟩ := outcome
    exact ⟨1, final, cost, .onward sees shown.busy went (.rest final), holds⟩
  | error fault after =>
    rw [evaluated] at outcome
    obtain ⟨final, failed, faulted⟩ := outcome
    exact ⟨1, final, cost, .stop sees shown.busy failed, faulted⟩

namespace Shows

variable {tag : String}

/-- A step of an instruction that calls nothing. -/
theorem ownStep {α : Type} (shown : activation.Shows address values store state)
    {instruction : Instruction} {evaluation : Evaluation α} {post : α → Store → State → Prop}
    (fetched : activation.Fetches address instruction)
    (own : instruction.opcode ≠ .callFunc)
    (performs : ∀ next, activation.Shows (address + 1) values store next →
      activation.Performs
        (Action.perform session.compiled session.settings instruction next) (evaluation store)
        post) :
    activation.Simulates 1 state evaluation store post := by
  refine shown.step fetched ?_ performs
  rintro name tag entry rfl
  exact absurd rfl own

theorem performs_push (shown : activation.Shows address values store state) (value : Value) :
    activation.Performs (Action.push value state)
      ((hold session.limit values.length >>= fun _ => pure value) store)
      fun result after next => activation.Shows address (result :: values) after next := by
  by_cases full : session.limit ≤ values.length
  · rw [hold, if_pos full]
    exact ⟨state, shown.push_full value full, shown.faulted _⟩
  · rw [hold, if_neg full]
    exact shown.push value (Nat.lt_of_not_le full)

/-- Loading a constant holds it above the values that wait. -/
theorem loadConstant (shown : activation.Shows address values store state) {opcode : Opcode}
    {operand : Value} (fetched : activation.Fetches address ⟨opcode, operand, tag⟩)
    (loads : opcode = .loadConst ∨ opcode = .newStruct) :
    activation.Simulates 1 state (hold session.limit values.length >>= fun _ => pure operand) store
      fun value after next => activation.Shows (address + 1) (value :: values) after next := by
  rcases loads with rfl | rfl
  · exact shown.ownStep fetched (by simp) fun next shownNext => shownNext.performs_push operand
  · exact shown.ownStep fetched (by simp) fun next shownNext => shownNext.performs_push operand

/-- Loading a variable reads it and holds its value. -/
theorem loadVariable (shown : activation.Shows address values store state) {name : String}
    (fetched : activation.Fetches address (.named .loadVar name tag)) :
    activation.Simulates 1 state
      (lift (store.read name) >>= fun value =>
        hold session.limit values.length >>= fun _ => pure value) store
      fun value after next => activation.Shows (address + 1) (value :: values) after next := by
  refine shown.ownStep fetched (by simp [Instruction.named]) fun next shownNext => ?_
  simp only [Action.perform, Instruction.named, Value.asString, Action.lift_ok_bind,
    Action.bind_get, shownNext.resolve, searched, Option.getD_some]
  cases store.read name with
  | ok value => exact shownNext.performs_push value
  | error cause => exact ⟨next, rfl, shownNext.faulted cause⟩

/-- Applying an operator takes two values and holds the result in their place. -/
theorem applyOperator {left right : Value} {operator : Operator}
    (shown : activation.Shows address (right :: left :: values) store state)
    (above : activation.below <:+ values)
    (fetched : activation.Fetches address (.bare (.binary operator) tag)) :
    activation.Simulates 1 state (lift (operator.apply left right)) store
      fun value after next => activation.Shows (address + 1) (value :: values) after next := by
  refine shown.ownStep fetched (by simp [Instruction.bare]) fun next shownNext => ?_
  obtain ⟨one, popRight, shownOne⟩ := shownNext.pop (above.trans (List.suffix_cons left values))
  obtain ⟨two, popLeft, shownTwo⟩ := shownOne.pop above
  simp only [Action.perform, Instruction.bare, Action.bind_of_ok popRight,
    Action.bind_of_ok popLeft]
  cases operator.apply left right with
  | ok value => exact shownTwo.push value shownOne.fits
  | error cause => exact ⟨two, rfl, shownTwo.faulted cause⟩

/-- Loading a field replaces a struct by one of its fields. -/
theorem loadField {whole : Value} {name : String}
    (shown : activation.Shows address (whole :: values) store state)
    (above : activation.below <:+ values)
    (fetched : activation.Fetches address (.named .loadField name tag)) :
    activation.Simulates 1 state
      (lift whole.asStruct >>= fun record => lift (Record.field record name)) store
      fun value after next => activation.Shows (address + 1) (value :: values) after next := by
  refine shown.ownStep fetched (by simp [Instruction.named]) fun next shownNext => ?_
  obtain ⟨one, popWhole, shownOne⟩ := shownNext.pop above
  simp only [Action.perform, Instruction.named, Value.asString, Action.bind_of_ok popWhole]
  cases whole.asStruct with
  | error cause => exact ⟨one, rfl, shownOne.faulted cause⟩
  | ok record =>
    simp only [Action.lift_ok_bind, lift_ok_bind]
    cases Record.field record name with
    | ok value => exact shownOne.push value shownNext.fits
    | error cause => exact ⟨one, rfl, shownOne.faulted cause⟩

/-- Storing a field puts a value into a struct that was loaded above it. -/
theorem storeField {whole value : Value} {name : String}
    (shown : activation.Shows address (whole :: value :: values) store state)
    (above : activation.below <:+ values)
    (fetched : activation.Fetches address (.named .storeField name tag)) :
    activation.Simulates 1 state (lift whole.asStruct) store
      fun record after next => activation.Shows (address + 1)
        (.struct (record.insert name value) :: values) after next := by
  refine shown.ownStep fetched (by simp [Instruction.named]) fun next shownNext => ?_
  obtain ⟨one, popWhole, shownOne⟩ := shownNext.pop (above.trans (List.suffix_cons value values))
  obtain ⟨two, popValue, shownTwo⟩ := shownOne.pop above
  simp only [Action.perform, Instruction.named, Value.asString, Action.bind_of_ok popWhole]
  cases whole.asStruct with
  | error cause => exact ⟨one, rfl, shownOne.faulted cause⟩
  | ok record =>
    simp only [Action.lift_ok_bind, Action.bind_of_ok popValue]
    exact shownTwo.push (.struct (record.insert name value)) shownOne.fits

/-- Dropping the value of an expression goes on as before. -/
theorem drop {α : Type} {value : Value} {result : α}
    (shown : activation.Shows address (value :: values) store state)
    (above : activation.below <:+ values)
    (fetched : activation.Fetches address (.bare .pop tag)) :
    activation.Simulates 1 state (pure result) store
      fun given after next => given = result ∧
        activation.Shows (address + 1) values after next := by
  refine shown.ownStep fetched (by simp [Instruction.bare]) fun next shownNext => ?_
  obtain ⟨one, popped, shownOne⟩ := shownNext.pop above
  exact ⟨one, Action.bind_of_ok popped, rfl, shownOne⟩

/-- Defining a variable takes its first value. -/
theorem defineVariable {value : Value} {name : String}
    (shown : activation.Shows address (value :: values) store state)
    (above : activation.below <:+ values)
    (fetched : activation.Fetches address (.named .defineVar name tag)) :
    activation.Simulates 1 state (modify fun store => store.define name value) store
      fun _ after next => activation.Shows (address + 1) values after next := by
  refine shown.ownStep fetched (by simp [Instruction.named]) fun next shownNext => ?_
  obtain ⟨one, popped, shownOne⟩ := shownNext.pop above
  refine ⟨_, Action.bind_of_ok popped, { shownOne with
    scopes_eq := ?_
    place_eq := ?_ }⟩
  · show Scopes.define one.scopes one.currentScope name value = _
    rw [shownOne.scopes_eq, shownOne.currentScope, Scopes.define_ofStore]
  · rw [Store.place_define, shownOne.place_eq]

/-- Storing a variable takes its new value. -/
theorem storeVariable {value : Value} {name : String}
    (shown : activation.Shows address (value :: values) store state)
    (above : activation.below <:+ values)
    (fetched : activation.Fetches address (.named .storeVar name tag)) :
    activation.Simulates 1 state (lift (store.write name value) >>= set) store
      fun _ after next => activation.Shows (address + 1) values after next := by
  refine shown.ownStep fetched (by simp [Instruction.named]) fun next shownNext => ?_
  obtain ⟨one, popped, shownOne⟩ := shownNext.pop above
  have assigned : one.scopes.assign one.currentScope name value =
      some ((store.write name value).map (Scopes.ofStore activation.pending)) := by
    rw [shownOne.scopes_eq, shownOne.currentScope, Scopes.assign_ofStore]
  simp only [Action.perform, Instruction.named, Value.asString, Action.bind_of_ok popped,
    Action.lift_ok_bind, Action.bind_get, assigned, searched, Option.getD_some]
  cases written : store.write name value with
  | error cause => exact ⟨one, rfl, shownOne.faulted cause⟩
  | ok after =>
    exact ⟨_, rfl, { shownOne with
      scopes_eq := rfl
      place_eq := (Store.place_write written _).trans shownOne.place_eq }⟩

/-- Moving the program counter over a part of the code goes on behind it. -/
theorem jump_eq_ok {count : Nat} (shown : activation.Shows address values store state)
    (inside : address + count < session.compiled.code.size) :
    Action.jump session.compiled (.int (Int64.ofNat count)) state =
      .ok () { state with pc := address + count } := by
  rw [← shown.pc_eq] at inside ⊢
  exact Action.jump_eq_ok session.addressable inside

/-- Jumping over a part of the code goes on behind it. -/
theorem jump {α : Type} {result : α} {count : Nat}
    (shown : activation.Shows address values store state)
    (fetched : activation.Fetches address (.jumpOver .jump count tag))
    (inside : address + 1 + count < session.compiled.code.size) :
    activation.Simulates 1 state (pure result) store
      fun given after next => given = result ∧
        activation.Shows (address + 1 + count) values after next := by
  refine shown.ownStep fetched (by simp [Instruction.jumpOver]) fun next shownNext => ?_
  exact ⟨_, shownNext.jump_eq_ok inside, rfl, { shownNext with pc_eq := rfl }⟩

/-- A conditional jump takes a condition and passes over a part of the code if it is false. -/
theorem jumpIfFalse {condition : Value} {count : Nat}
    (shown : activation.Shows address (condition :: values) store state)
    (above : activation.below <:+ values)
    (fetched : activation.Fetches address (.jumpOver .jumpIfFalse count tag))
    (inside : address + 1 + count < session.compiled.code.size) :
    activation.Simulates 1 state (lift condition.asCondition) store
      fun truth after next => activation.Shows (if truth then address + 1 else address + 1 + count)
        values after next := by
  refine shown.ownStep fetched (by simp [Instruction.jumpOver]) fun next shownNext => ?_
  obtain ⟨one, popped, shownOne⟩ := shownNext.pop above
  simp only [Action.perform, Instruction.jumpOver, Action.bind_of_ok popped]
  cases condition.asCondition with
  | error cause => exact ⟨one, rfl, shownOne.faulted cause⟩
  | ok truth =>
    cases truth with
    | true => exact ⟨one, rfl, shownOne⟩
    | false => exact ⟨_, shownOne.jump_eq_ok inside, { shownOne with pc_eq := rfl }⟩

/-- Ending the call releases its table and goes back to the caller. -/
theorem leave {result : Option Value}
    (shown : activation.Shows address (result.toList ++ activation.below) store state) :
    activation.Returned result store state.leave := by
  have left : state.leave = { state with
      calls := activation.callers
      scopes := state.scopes.release activation.frame.scope
      pc := activation.frame.returnAddress
      events := state.events.push (.returned activation.frame.function) } := by
    unfold State.leave
    rw [shown.calls_eq]
    rfl
  rw [left]
  exact {
    pc_eq := rfl
    calls_eq := rfl
    limit_eq := shown.limit_eq
    values_eq := shown.values_eq
    fits := shown.fits
    scopes_eq := by
      show state.scopes.release activation.frame.scope = _
      rw [shown.scopes_eq, ← shown.place_eq, Scopes.release_ofStore] }

/-- A return with a value leaves it above what lay below the call. -/
theorem returnValue {α : Type} {result : α} {value : Value}
    (shown : activation.Shows address (value :: activation.below) store state)
    (fetched : activation.Fetches address (.bare .returnValue tag)) :
    activation.Simulates 1 state (pure result) store
      fun given after next => given = result ∧
        activation.Returned (some value) after next := by
  refine shown.ownStep fetched (by simp [Instruction.bare]) fun next shownNext => ?_
  have nonempty : next.stack.isEmpty = false := by
    rw [OperandStack.isEmpty, shownNext.values_eq]
    rfl
  refine ⟨next.leave, ?_, rfl, shownNext.leave⟩
  simp [Action.perform, Instruction.bare, nonempty]

/-- A return without a value leaves what lay below the call. -/
theorem returnVoid {α : Type} {result : α}
    (shown : activation.Shows address activation.below store state)
    (fetched : activation.Fetches address (.bare .returnVoid tag)) :
    activation.Simulates 1 state (pure result) store
      fun given after next => given = result ∧ activation.Returned none after next := by
  refine shown.ownStep fetched (by simp [Instruction.bare]) fun next shownNext => ?_
  exact ⟨next.leave, rfl, rfl, @leave _ _ _ _ _ none shownNext⟩

end Shows

end Activation

end StackLang.Machine
