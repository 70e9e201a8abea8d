import StackLang.Proofs.Walk

/-!
# What a step can do

A step goes on in the innermost call, jumps in its code, makes another call active or ends the
innermost one; `Performed` says what each of these does to calls, tables and the program counter,
and `Action.step_cases` that there is nothing else. An instruction that fails leaves the calls and
the tables as they are (`Action.step_stops`). All of it holds of any code, compiled or not.
-/

namespace StackLang

namespace Scopes

/-- The parents of the live tables, the global one first. -/
def parents (scopes : Scopes) : List (Option ScopeId) :=
  scopes.tables.toList.map SymbolTable.parent

@[simp] theorem length_parents (scopes : Scopes) : scopes.parents.length = scopes.size := by
  simp [parents, size]

@[simp] theorem parents_define (scopes : Scopes) (scope : ScopeId) (name : String)
    (value : Value) : (scopes.define scope name value).parents = scopes.parents := by
  apply List.ext_getElem?
  intro index
  simp only [parents, define, modify, List.getElem?_map, Array.getElem?_toList,
    Array.getElem?_modify]
  split
  · cases scopes.tables[index]? <;> rfl
  · rfl

@[simp] theorem parents_createChild (scopes : Scopes) (parent : ScopeId) :
    (scopes.createChild parent).parents = scopes.parents ++ [some parent] := by
  simp [parents, createChild]

theorem parents_assign {scopes after : Scopes} {scope : ScopeId} {name : String} {value : Value}
    (assigned : scopes.assign scope name value = some (.ok after)) :
    after.parents = scopes.parents := by
  obtain ⟨place, _, defined⟩ := Option.map_eq_some_iff.mp assigned
  split at defined
  · cases defined
    exact parents_define scopes _ name value
  · cases defined

theorem parents_bindParameters (scope : ScopeId) (parameters : List TypedName)
    (arguments : List Value) (scopes : Scopes) :
    (Machine.bindParameters scope parameters arguments scopes).parents = scopes.parents := by
  unfold Machine.bindParameters
  generalize parameters.reverse.zip arguments = bound
  induction bound generalizing scopes with
  | nil => rfl
  | cons first rest inductionHypothesis =>
    rw [List.foldl_cons, inductionHypothesis, parents_define]

end Scopes

namespace Machine

variable {program : CompiledProgram} {settings : Settings}

/-- The operand stack holds no more values than it may. -/
def State.Fits (state : State) : Prop :=
  state.stack.values.length ≤ state.stack.limit

theorem State.leave_eq {state : State} {frame : Frame} {callers : CallStack}
    (active : state.calls = frame :: callers) :
    state.leave = { state with
      calls := callers
      scopes := state.scopes.release frame.scope
      pc := frame.returnAddress
      events := state.events.push (.returned frame.function) } := by
  unfold State.leave
  rw [active]

/-- The calls and the tables are the same, though variables may have other values. -/
structure Undisturbed (before after : State) : Prop where
  calls_eq : after.calls = before.calls
  parents_eq : after.scopes.parents = before.scopes.parents
  limit_eq : after.stack.limit = before.stack.limit
  fits : before.Fits → after.Fits

/-- Besides, nothing has been reported and control has not moved. -/
structure Steady (before after : State) : Prop extends Undisturbed before after where
  pc_eq : after.pc = before.pc
  events_eq : after.events = before.events

theorem Undisturbed.trans {before between after : State} (first : Undisturbed before between)
    (second : Undisturbed between after) : Undisturbed before after where
  calls_eq := second.calls_eq.trans first.calls_eq
  parents_eq := second.parents_eq.trans first.parents_eq
  limit_eq := second.limit_eq.trans first.limit_eq
  fits := fun fits => second.fits (first.fits fits)

theorem Steady.refl (state : State) : Steady state state where
  calls_eq := rfl
  parents_eq := rfl
  limit_eq := rfl
  fits := id
  pc_eq := rfl
  events_eq := rfl

theorem Steady.trans {before between after : State} (first : Steady before between)
    (second : Steady between after) : Steady before after where
  toUndisturbed := first.toUndisturbed.trans second.toUndisturbed
  pc_eq := second.pc_eq.trans first.pc_eq
  events_eq := second.events_eq.trans first.events_eq

theorem Steady.of_scopes (state : State) {scopes : Scopes}
    (parents_eq : scopes.parents = state.scopes.parents) : Steady state { state with scopes } where
  calls_eq := rfl
  parents_eq := parents_eq
  limit_eq := rfl
  fits := id
  pc_eq := rfl
  events_eq := rfl

namespace Action

variable {α β : Type}

/-- The state in which an action ended, with or without an error. -/
def final : EStateM.Result RunError State α → State
  | .ok _ state => state
  | .error _ state => state

/-- However the action ends, it keeps calls and tables, reports nothing and moves nowhere. -/
def IsSteady (action : Action α) : Prop :=
  ∀ state, Steady state (final (action state))

namespace IsSteady

theorem pure (value : α) : IsSteady (pure value) :=
  fun state => .refl state

theorem throw (cause : RunError) : IsSteady (throw cause : Action α) :=
  fun state => .refl state

theorem bind {action : Action α} {next : α → Action β} (first : IsSteady action)
    (later : ∀ value, IsSteady (next value)) : IsSteady (action >>= next) := by
  intro state
  have before := first state
  cases ended : action state with
  | error cause after =>
    rw [bind_of_error ended]
    rw [ended] at before
    exact before
  | ok value after =>
    rw [bind_of_ok ended]
    rw [ended] at before
    exact before.trans (later value after)

theorem lift (result : Except RunError α) : IsSteady (lift result) := by
  cases result with
  | ok value => exact pure value
  | error cause => exact throw cause

theorem push (value : Value) : IsSteady (push value) := by
  intro state
  unfold Action.push
  split
  · next stack pushed =>
    obtain ⟨room, rfl⟩ := OperandStack.push_eq_ok_iff.mp pushed
    rw [state.stack.size_eq] at room
    exact { Steady.refl state with limit_eq := rfl, fits := fun _ => room }
  · exact .refl state

theorem pop : IsSteady pop := by
  intro state
  unfold Action.pop
  split
  · next value stack popped =>
    have held := OperandStack.pop_eq_ok_iff.mp popped
    refine { Steady.refl state with limit_eq := ?_, fits := fun fits => ?_ }
    · rw [held]
      rfl
    · unfold State.Fits at fits
      rw [held] at fits
      exact Nat.le_of_succ_le fits
  · exact .refl state

theorem popMany (count : Nat) : IsSteady (popMany count) := by
  induction count with
  | zero => exact pure []
  | succ count inductionHypothesis =>
    exact bind pop fun value => bind inductionHypothesis fun others => pure (value :: others)

/-- Looking at the state and storing a variable from what is seen there. -/
theorem storeVariable (name : String) (value : Value) :
    IsSteady (get >>= fun state =>
      Action.lift (searched name (state.scopes.assign state.currentScope name value))
        >>= fun scopes => set { state with scopes }) := by
  intro state
  rw [bind_get]
  cases assigned : searched name (state.scopes.assign state.currentScope name value) with
  | error cause => exact .refl state
  | ok scopes =>
    exact .of_scopes state (Scopes.parents_assign (searched_eq_ok_iff.mp assigned))

theorem defineVariable (name : String) (value : Value) :
    IsSteady (modify fun state =>
      { state with scopes := state.scopes.define state.currentScope name value }) :=
  fun state => .of_scopes state (Scopes.parents_define _ _ _ _)

theorem loadVariable (name : String) :
    IsSteady (get >>= fun state =>
      Action.lift (searched name (state.scopes.resolve state.currentScope name))
        >>= Action.push) := by
  intro state
  rw [bind_get]
  exact bind (lift _) push state

end IsSteady

end Action

/-- A function has been called: it has a frame and a table of its own, the newest, below the global
table. -/
structure Entered (settings : Settings) (entry : FunctionEntry) (returnAddress : Nat)
    (state next : State) : Prop where
  shallow : state.calls.depth < settings.maxCallDepth
  calls_eq : next.calls =
    ⟨entry.declaration.name, state.scopes.nextId, returnAddress⟩ :: state.calls
  pc_eq : next.pc = entry.address
  parents_eq : next.scopes.parents = state.scopes.parents ++ [some .global]
  limit_eq : next.stack.limit = state.stack.limit
  fits : state.Fits → next.Fits
  events_eq : next.events =
    state.events.push (.called entry.declaration.name (state.calls.depth + 1))

theorem Action.call_cases (settings : Settings) (entry : FunctionEntry) (returnAddress : Nat)
    (state : State) :
    match Action.call settings entry returnAddress state with
    | .ok () next => Entered settings entry returnAddress state next
    | .error _ next => Steady state next := by
  unfold Action.call
  rw [bind_get]
  by_cases deep : settings.maxCallDepth ≤ state.calls.depth
  · rw [if_pos deep]
    exact .refl state
  · rw [if_neg deep]
    have taken := IsSteady.popMany entry.declaration.arity state
    cases popped : popMany entry.declaration.arity state with
    | error cause between =>
      rw [bind_of_error popped]
      rw [popped] at taken
      exact taken
    | ok arguments between =>
      rw [bind_of_ok popped]
      rw [popped] at taken
      have sameTables : between.scopes.nextId = state.scopes.nextId := by
        unfold Scopes.nextId
        rw [← Scopes.length_parents, ← Scopes.length_parents]
        exact congrArg (fun parents => ScopeId.mk parents.length) taken.parents_eq
      exact {
        shallow := Nat.lt_of_not_le deep
        calls_eq := by
          rw [← taken.calls_eq, ← sameTables]
          rfl
        pc_eq := rfl
        parents_eq := by
          rw [← taken.parents_eq]
          exact (Scopes.parents_bindParameters _ _ _ _).trans (Scopes.parents_createChild _ _)
        limit_eq := taken.limit_eq
        fits := taken.fits
        events_eq := by
          rw [← taken.events_eq]
          rfl }

theorem Action.entered_of_call {entry : FunctionEntry} {returnAddress : Nat} {state next : State}
    (called : Action.call settings entry returnAddress state = .ok () next) :
    Entered settings entry returnAddress state next := by
  have outcome := call_cases settings entry returnAddress state
  rwa [called] at outcome

theorem Action.steady_of_call {entry : FunctionEntry} {returnAddress : Nat} {state next : State}
    {cause : RunError}
    (failed : Action.call settings entry returnAddress state = .error cause next) :
    Steady state next := by
  have outcome := call_cases settings entry returnAddress state
  rwa [failed] at outcome

/-- What an instruction that was carried out has done. -/
inductive Performed (program : CompiledProgram) (settings : Settings) (instruction : Instruction)
    (state : State) : State → Prop where
  /-- Control goes on behind the instruction. -/
  | onward {next : State} (steady : Steady state next)
      (own : instruction.opcode ∉ [.jump, .callFunc, .returnValue, .returnVoid]) :
      Performed program settings instruction state next
  /-- Control goes on somewhere else in the code. -/
  | jumped {between : State} {distance : Int64} (steady : Steady state between)
      (jumping : instruction.opcode = .jump ∨ instruction.opcode = .jumpIfFalse)
      (operand : instruction.operand = .int distance)
      (inside : 0 ≤ saturate (state.pc + distance.toInt) ∧
        saturate (state.pc + distance.toInt) < program.code.size) :
      Performed program settings instruction state
        { between with pc := (saturate (state.pc + distance.toInt)).toNat }
  | called {name : String} {entry : FunctionEntry} {next : State}
      (calling : instruction.opcode = .callFunc) (operand : instruction.operand = .string name)
      (found : program.functions.find? name = some entry)
      (entered : Entered settings entry state.pc state next) :
      Performed program settings instruction state next
  | left (returning : instruction.opcode = .returnValue ∨ instruction.opcode = .returnVoid) :
      Performed program settings instruction state state.leave

namespace Action

/-- An outcome in which the instruction has done something or has failed without a trace. -/
def Outcome (program : CompiledProgram) (settings : Settings) (instruction : Instruction)
    (state : State) : EStateM.Result RunError State Unit → Prop
  | .ok () next => Performed program settings instruction state next
  | .error _ next => Steady state next

variable {instruction : Instruction} {state : State}

theorem IsSteady.outcome {action : Action Unit} (steady : IsSteady action)
    (own : instruction.opcode ∉ [.jump, .callFunc, .returnValue, .returnVoid]) :
    Outcome program settings instruction state (action state) := by
  have kept := steady state
  cases ended : action state with
  | ok _ next =>
    rw [ended] at kept
    exact .onward kept own
  | error cause next =>
    rw [ended] at kept
    exact kept

theorem jump_outcome {between : State} (steady : Steady state between)
    (jumping : instruction.opcode = .jump ∨ instruction.opcode = .jumpIfFalse) :
    Outcome program settings instruction state
      (jump program instruction.operand between) := by
  unfold jump
  cases operand : instruction.operand with
  | int distance =>
    rw [Value.asInt, lift_ok_bind, bind_get, steady.pc_eq]
    split
    · exact steady
    · next inside => exact .jumped steady jumping operand (by omega)
  | _ => exact steady

theorem jumpIfFalse_outcome (jumping : instruction.opcode = .jumpIfFalse) :
    Outcome program settings instruction state
      (perform program settings instruction state) := by
  have taken := IsSteady.pop state
  simp only [perform, jumping]
  cases popped : pop state with
  | error cause between =>
    rw [bind_of_error popped]
    rw [popped] at taken
    exact taken
  | ok condition between =>
    rw [bind_of_ok popped]
    rw [popped] at taken
    cases condition.asCondition with
    | error cause => exact taken
    | ok truth =>
      rw [lift_ok_bind]
      cases truth with
      | true => exact .onward taken (by simp [jumping])
      | false => exact jump_outcome taken (.inr jumping)

theorem callFunc_outcome (calling : instruction.opcode = .callFunc) :
    Outcome program settings instruction state
      (perform program settings instruction state) := by
  simp only [perform, calling]
  cases operand : instruction.operand with
  | string name =>
    rw [Value.asString, lift_ok_bind]
    cases found : program.functions.find? name with
    | none => exact .refl state
    | some entry =>
      dsimp only
      rw [bind_get]
      cases ended : call settings entry state.pc state with
      | ok _ next => exact .called calling operand found (entered_of_call ended)
      | error cause next => exact steady_of_call ended
  | _ => exact .refl state

/-- Carrying out an instruction does what its kind can do, or fails and disturbs nothing. -/
theorem perform_outcome (program : CompiledProgram) (settings : Settings)
    (instruction : Instruction) (state : State) :
    Outcome program settings instruction state (perform program settings instruction state) := by
  obtain ⟨opcode, operand, tag⟩ := instruction
  cases opcode with
  | loadConst => exact (IsSteady.push operand).outcome (by simp)
  | newStruct => exact (IsSteady.push operand).outcome (by simp)
  | pop => exact (IsSteady.bind .pop fun _ => .pure ()).outcome (by simp)
  | binary operator =>
    have steady : IsSteady (perform program settings ⟨.binary operator, operand, tag⟩) :=
      .bind .pop fun _ => .bind .pop fun _ => .bind (.lift _) .push
    exact steady.outcome (by simp)
  | loadVar =>
    have steady : IsSteady (perform program settings ⟨.loadVar, operand, tag⟩) :=
      .bind (.lift _) .loadVariable
    exact steady.outcome (by simp)
  | storeVar =>
    have steady : IsSteady (perform program settings ⟨.storeVar, operand, tag⟩) :=
      .bind .pop fun value => .bind (.lift _) fun name => .storeVariable name value
    exact steady.outcome (by simp)
  | defineVar =>
    have steady : IsSteady (perform program settings ⟨.defineVar, operand, tag⟩) :=
      .bind .pop fun value => .bind (.lift _) fun name => .defineVariable name value
    exact steady.outcome (by simp)
  | storeField =>
    have steady : IsSteady (perform program settings ⟨.storeField, operand, tag⟩) :=
      .bind .pop fun _ => .bind (.lift _) fun _ => .bind .pop fun _ =>
        .bind (.lift _) fun _ => .push _
    exact steady.outcome (by simp)
  | loadField =>
    have steady : IsSteady (perform program settings ⟨.loadField, operand, tag⟩) :=
      .bind .pop fun _ => .bind (.lift _) fun _ => .bind (.lift _) fun _ =>
        .bind (.lift _) .push
    exact steady.outcome (by simp)
  | jump => exact jump_outcome (.refl state) (.inl rfl)
  | jumpIfFalse => exact jumpIfFalse_outcome rfl
  | callFunc => exact callFunc_outcome rfl
  | returnValue =>
    simp only [perform, bind_get]
    split
    · exact .refl state
    · exact .left (.inl rfl)
  | returnVoid => exact .left (.inr rfl)

theorem undisturbed_fetched (settings : Settings) (instruction : Instruction) (state : State) :
    Undisturbed state (fetched settings instruction state) := by
  unfold fetched
  split <;> exact ⟨rfl, rfl, rfl, id⟩

@[simp] theorem pc_fetched (settings : Settings) (instruction : Instruction) (state : State) :
    (fetched settings instruction state).pc = state.pc + 1 := rfl

@[simp] theorem scopes_fetched (settings : Settings) (instruction : Instruction) (state : State) :
    (fetched settings instruction state).scopes = state.scopes := by
  unfold fetched
  split <;> rfl

@[simp] theorem stack_fetched (settings : Settings) (instruction : Instruction) (state : State) :
    (fetched settings instruction state).stack = state.stack := by
  unfold fetched
  split <;> rfl

/-- A step that goes on has fetched an instruction and carried it out. -/
theorem step_cases {next : State} (stepped : step program settings state = .ok () next) :
    ∃ instruction, program.code[state.pc]? = some instruction ∧
      Performed program settings instruction (fetched settings instruction state) next := by
  cases found : program.code[state.pc]? with
  | none =>
    simp only [step, bind_get, found] at stepped
    cases stepped
  | some instruction =>
    rw [step_of_fetch found] at stepped
    have outcome := perform_outcome program settings instruction
      (fetched settings instruction state)
    rw [stepped] at outcome
    exact ⟨instruction, rfl, outcome⟩

/-- A step keeps the active calls, makes one more active or ends the innermost one. -/
theorem step_calls {next : State} (busy : state.calls ≠ [])
    (stepped : step program settings state = .ok () next) :
    next.calls = state.calls ∨ (∃ frame, next.calls = frame :: state.calls) ∨
      ∃ frame, state.calls = frame :: next.calls ∧ next.pc = frame.returnAddress ∧
        next.scopes = state.scopes.release frame.scope := by
  obtain ⟨instruction, _, performed⟩ := step_cases stepped
  have same := (undisturbed_fetched settings instruction state).calls_eq
  cases performed with
  | onward steady _ => exact .inl (steady.calls_eq.trans same)
  | jumped steady _ _ _ => exact .inl (steady.calls_eq.trans same)
  | called _ _ _ entered => exact .inr (.inl ⟨_, entered.calls_eq.trans (congrArg _ same)⟩)
  | left _ =>
    cases calls : state.calls with
    | nil => exact absurd calls busy
    | cons frame callers =>
      rw [State.leave_eq (same.trans calls), scopes_fetched]
      exact .inr (.inr ⟨frame, rfl, rfl, rfl⟩)

/-- A step that fails leaves the calls and the tables as they were. -/
theorem step_stops {cause : RunError} {next : State}
    (failed : step program settings state = .error cause next) : Undisturbed state next := by
  cases found : program.code[state.pc]? with
  | none =>
    simp only [step, bind_get, found] at failed
    cases failed
    exact (Steady.refl state).toUndisturbed
  | some instruction =>
    rw [step_of_fetch found] at failed
    have outcome := perform_outcome program settings instruction
      (fetched settings instruction state)
    rw [failed] at outcome
    exact (undisturbed_fetched settings instruction state).trans outcome.toUndisturbed

end Action

end Machine

end StackLang
