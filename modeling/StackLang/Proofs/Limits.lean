import StackLang.Proofs.FrameTables

/-!
# Limits only cut runs short

Two machines run the same code, but for its tags, from states that differ at most in what has been
reported and in the limit of the operand stack (`Roomier`). The second machine has no lower limits.
It then does whatever the first one does, until the first one stops at a limit (`Follows`): every
action that an instruction is composed of is mirrored, and so are steps, phases and whole runs.
-/

namespace StackLang

/-- The cause is that a limit of the machine has been reached. -/
def RunError.IsLimit : RunError → Prop
  | .stackOverflow _ | .recursionTooDeep _ => True
  | _ => False

/-- The same program with other tags, which are given for each address. -/
def CompiledProgram.retagged (program : CompiledProgram) (tags : Nat → String) : CompiledProgram :=
  { program with
    code := program.code.mapIdx fun address instruction =>
      { instruction with tag := tags address } }

@[simp] theorem CompiledProgram.size_retagged (program : CompiledProgram) (tags : Nat → String) :
    (program.retagged tags).code.size = program.code.size :=
  Array.size_mapIdx

theorem CompiledProgram.fetch_retagged (program : CompiledProgram) (tags : Nat → String)
    (address : Nat) :
    (program.retagged tags).code[address]? =
      program.code[address]?.map fun instruction => { instruction with tag := tags address } :=
  Array.getElem?_mapIdx

namespace Machine

/-- Two states that differ at most in what has been reported and in the limit of the operand stack,
which is no lower in the second. -/
structure Roomier (state roomy : State) : Prop where
  pc_eq : roomy.pc = state.pc
  values_eq : roomy.stack.values = state.stack.values
  calls_eq : roomy.calls = state.calls
  scopes_eq : roomy.scopes = state.scopes
  limit_le : state.stack.limit ≤ roomy.stack.limit

namespace Roomier

variable {state roomy : State}

theorem currentScope_eq (roomier : Roomier state roomy) :
    roomy.currentScope = state.currentScope := by
  rw [State.currentScope, roomier.calls_eq, State.currentScope]

theorem size_eq (roomier : Roomier state roomy) : roomy.stack.size = state.stack.size := by
  rw [roomy.stack.size_eq, state.stack.size_eq, roomier.values_eq]

theorem leave (roomier : Roomier state roomy) : Roomier state.leave roomy.leave := by
  cases calls : state.calls with
  | nil =>
    have idle : state.leave = state ∧ roomy.leave = roomy := by
      unfold State.leave
      rw [roomier.calls_eq, calls]
      exact ⟨rfl, rfl⟩
    rw [idle.1, idle.2]
    exact roomier
  | cons frame callers =>
    rw [State.leave_eq calls, State.leave_eq (roomier.calls_eq.trans calls)]
    exact { roomier with
      pc_eq := rfl
      calls_eq := rfl
      scopes_eq := congrArg (fun scopes => scopes.release frame.scope) roomier.scopes_eq }

theorem report (roomier : Roomier state roomy) (event roomyEvent : Event) :
    Roomier (state.report event) (roomy.report roomyEvent) :=
  { roomier with }

theorem fetched (roomier : Roomier state roomy) (settings roomySettings : Settings)
    (instruction roomyInstruction : Instruction) :
    Roomier (Action.fetched settings instruction state)
      (Action.fetched roomySettings roomyInstruction roomy) := by
  have counted : roomy.pc + 1 = state.pc + 1 := congrArg (· + 1) roomier.pc_eq
  unfold Action.fetched
  split <;> split <;> exact { roomier with pc_eq := counted }

end Roomier

/-- The second of two results is as the first one is, unless the first one is that a limit has been
reached. -/
inductive Follows {α : Type} : EStateM.Result RunError State α → EStateM.Result RunError State α →
    Prop where
  | ok {after roomyAfter : State} (value : α) (roomier : Roomier after roomyAfter) :
      Follows (.ok value after) (.ok value roomyAfter)
  | error {after roomyAfter : State} (cause : RunError) (roomier : Roomier after roomyAfter) :
      Follows (.error cause after) (.error cause roomyAfter)
  | cut {after : State} {cause : RunError} (limit : cause.IsLimit)
      (other : EStateM.Result RunError State α) : Follows (.error cause after) other

namespace Follows

variable {α : Type} {other : EStateM.Result RunError State α} {after : State}

theorem of_ok {value : α} (follows : Follows (.ok value after) other) :
    ∃ roomyAfter, other = .ok value roomyAfter ∧ Roomier after roomyAfter := by
  cases follows with
  | ok _ roomier => exact ⟨_, rfl, roomier⟩

theorem of_error {cause : RunError} (follows : Follows (.error cause after) other)
    (uncut : ¬ cause.IsLimit) :
    ∃ roomyAfter, other = .error cause roomyAfter ∧ Roomier after roomyAfter := by
  cases follows with
  | error _ roomier => exact ⟨_, rfl, roomier⟩
  | cut limit _ => exact absurd limit uncut

end Follows

/-- In a roomier state the second action does what the first one does. -/
def Mirrors {α : Type} (action roomyAction : Action α) : Prop :=
  ∀ state roomy, Roomier state roomy → Follows (action state) (roomyAction roomy)

namespace Mirrors

variable {α β : Type}

theorem pure (value : α) : Mirrors (pure value) (pure value) :=
  fun _ _ roomier => .ok value roomier

theorem throw (cause : RunError) : Mirrors (throw cause : Action α) (throw cause) :=
  fun _ _ roomier => .error cause roomier

theorem lift (result : Except RunError α) : Mirrors (Action.lift result) (Action.lift result) := by
  cases result with
  | ok value => exact pure value
  | error cause => exact throw cause

theorem bind {action roomyAction : Action α} {next roomyNext : α → Action β}
    (first : Mirrors action roomyAction) (later : ∀ value, Mirrors (next value) (roomyNext value)) :
    Mirrors (action >>= next) (roomyAction >>= roomyNext) := by
  intro state roomy roomier
  have before := first state roomy roomier
  cases ended : action state with
  | ok value after =>
    rw [ended] at before
    obtain ⟨roomyAfter, roomyEnded, roomierAfter⟩ := before.of_ok
    rw [Action.bind_of_ok ended, Action.bind_of_ok roomyEnded]
    exact later value after roomyAfter roomierAfter
  | error cause after =>
    rw [ended] at before
    rw [Action.bind_of_error ended]
    by_cases limit : cause.IsLimit
    · exact .cut limit _
    · obtain ⟨roomyAfter, roomyEnded, roomierAfter⟩ := before.of_error limit
      rw [Action.bind_of_error roomyEnded]
      exact .error cause roomierAfter

/-- What is done after looking at the state is mirrored if it is for what both states share. -/
theorem inspect {next roomyNext : State → Action β}
    (later : ∀ state roomy, Roomier state roomy → Mirrors (next state) (roomyNext roomy)) :
    Mirrors (get >>= next) (get >>= roomyNext) :=
  fun state roomy roomier => later state roomy roomier state roomy roomier

theorem set {state roomy : State} (roomier : Roomier state roomy) :
    Mirrors (set state : Action PUnit) (set roomy) := by
  intro before roomyBefore _
  rw [Action.set_apply, Action.set_apply]
  exact .ok _ roomier

theorem modify {change : State → State}
    (keeps : ∀ state roomy, Roomier state roomy → Roomier (change state) (change roomy)) :
    Mirrors (modify change : Action PUnit) (modify change) := by
  intro state roomy roomier
  show Follows (.ok _ (change state)) (.ok _ (change roomy))
  exact .ok _ (keeps state roomy roomier)

theorem push (value : Value) : Mirrors (Action.push value) (Action.push value) := by
  intro state roomy roomier
  unfold Action.push OperandStack.push
  by_cases full : state.stack.limit ≤ state.stack.size
  · have overflow : (RunError.stackOverflow state.stack.limit).IsLimit := trivial
    rw [if_pos full]
    exact .cut overflow _
  · have room : ¬ roomy.stack.limit ≤ roomy.stack.size := by
      have wider := roomier.limit_le
      rw [roomier.size_eq]
      omega
    rw [if_neg full, if_neg room]
    exact .ok () { roomier with values_eq := congrArg (value :: ·) roomier.values_eq }

theorem pop : Mirrors Action.pop Action.pop := by
  intro state roomy roomier
  have same := roomier.values_eq
  cases values : state.stack.values with
  | nil =>
    rw [values] at same
    rw [Action.pop_of_nil values, Action.pop_of_nil same]
    exact .error .stackUnderflow roomier
  | cons value rest =>
    rw [values] at same
    rw [Action.pop_of_cons values, Action.pop_of_cons same]
    exact .ok value { roomier with values_eq := rfl }

theorem popMany (count : Nat) : Mirrors (Action.popMany count) (Action.popMany count) := by
  induction count with
  | zero => exact pure []
  | succ count inductionHypothesis =>
    exact bind pop fun value => bind inductionHypothesis fun others => pure (value :: others)

end Mirrors

section Instructions

variable {program : CompiledProgram} {settings roomySettings : Settings} {tags : Nat → String}

theorem mirrors_jump (operand : Value) :
    Mirrors (Action.jump program operand) (Action.jump (program.retagged tags) operand) := by
  refine .bind (.lift operand.asInt) fun distance => .inspect fun state roomy roomier => ?_
  rw [roomier.pc_eq, CompiledProgram.size_retagged]
  dsimp only
  split
  · exact .throw _
  · exact .set { roomier with pc_eq := rfl }

variable (deeper : settings.maxCallDepth ≤ roomySettings.maxCallDepth)

include deeper

theorem mirrors_call (entry : FunctionEntry) (returnAddress : Nat) :
    Mirrors (Action.call settings entry returnAddress)
      (Action.call roomySettings entry returnAddress) := by
  refine .inspect fun state roomy roomier => ?_
  by_cases tooDeep : settings.maxCallDepth ≤ state.calls.depth
  · have refused : (RunError.recursionTooDeep settings.maxCallDepth).IsLimit := trivial
    rw [if_pos tooDeep]
    intro _ _ _
    exact .cut refused _
  · have permitted : ¬ roomySettings.maxCallDepth ≤ roomy.calls.depth := by
      rw [roomier.calls_eq]
      omega
    rw [if_neg tooDeep, if_neg permitted]
    refine .bind (.popMany entry.declaration.arity) fun arguments => ?_
    rw [roomier.calls_eq]
    refine .modify fun before roomyBefore alike => ?_
    have place : roomyBefore.scopes.nextId = before.scopes.nextId :=
      congrArg Scopes.nextId alike.scopes_eq
    exact { alike with
      pc_eq := rfl
      calls_eq := by
        show Frame.mk _ roomyBefore.scopes.nextId _ :: roomyBefore.calls = _
        rw [place, alike.calls_eq]
        rfl
      scopes_eq := by
        show bindParameters roomyBefore.scopes.nextId _ _ _ = _
        rw [place, alike.scopes_eq]
        rfl }

/-- Carrying out an instruction is mirrored, whatever its tag is. -/
theorem mirrors_perform (opcode : Opcode) (operand : Value) (tag roomyTag : String) :
    Mirrors (Action.perform program settings ⟨opcode, operand, tag⟩)
      (Action.perform (program.retagged tags) roomySettings ⟨opcode, operand, roomyTag⟩) := by
  cases opcode with
  | loadConst => exact .push operand
  | newStruct => exact .push operand
  | pop => exact .bind .pop fun _ => .pure ()
  | binary operator =>
    exact .bind .pop fun _ => .bind .pop fun _ => .bind (.lift _) .push
  | loadVar =>
    refine .bind (.lift _) fun name => .inspect fun state roomy roomier => ?_
    rw [roomier.scopes_eq, roomier.currentScope_eq]
    exact .bind (.lift _) .push
  | storeVar =>
    refine .bind .pop fun value => .bind (.lift _) fun name =>
      .inspect fun state roomy roomier => ?_
    rw [roomier.scopes_eq, roomier.currentScope_eq]
    exact .bind (.lift _) fun scopes => .set { roomier with scopes_eq := rfl }
  | defineVar =>
    refine .bind .pop fun value => .bind (.lift _) fun name =>
      .modify fun state roomy roomier => { roomier with scopes_eq := ?_ }
    show roomy.scopes.define roomy.currentScope name value = _
    rw [roomier.scopes_eq, roomier.currentScope_eq]
  | storeField =>
    exact .bind .pop fun _ => .bind (.lift _) fun _ => .bind .pop fun _ =>
      .bind (.lift _) fun _ => .push _
  | loadField =>
    exact .bind .pop fun _ => .bind (.lift _) fun _ => .bind (.lift _) fun _ =>
      .bind (.lift _) .push
  | jump => exact mirrors_jump operand
  | jumpIfFalse =>
    refine .bind .pop fun value => .bind (.lift _) fun condition => ?_
    cases condition with
    | true => exact .pure ()
    | false => exact mirrors_jump operand
  | callFunc =>
    refine .bind (.lift _) fun name => ?_
    cases found : program.functions.find? name with
    | none =>
      have roomyFound : (program.retagged tags).functions.find? name = none := found
      rw [roomyFound]
      exact .throw _
    | some entry =>
      have roomyFound : (program.retagged tags).functions.find? name = some entry := found
      rw [roomyFound]
      refine .inspect fun state roomy roomier => ?_
      rw [roomier.pc_eq]
      exact mirrors_call deeper entry state.pc
  | returnValue =>
    refine .inspect fun state roomy roomier => ?_
    have same : roomy.stack.isEmpty = state.stack.isEmpty :=
      congrArg List.isEmpty roomier.values_eq
    rw [same]
    split
    · exact .throw _
    · exact .set roomier.leave
  | returnVoid => exact .modify fun _ _ roomier => roomier.leave

/-- A step is mirrored, whether instructions are reported or not. -/
theorem mirrors_step :
    Mirrors (Action.step program settings)
      (Action.step (program.retagged tags) roomySettings) := by
  intro state roomy roomier
  have here : (program.retagged tags).code[roomy.pc]? =
      program.code[state.pc]?.map fun instruction => { instruction with tag := tags state.pc } := by
    rw [roomier.pc_eq, CompiledProgram.fetch_retagged]
  cases found : program.code[state.pc]? with
  | none =>
    rw [found] at here
    rw [Action.step_of_outside found, Action.step_of_outside here, roomier.pc_eq]
    exact .error _ roomier
  | some instruction =>
    rw [found] at here
    rw [Action.step_of_fetch found, Action.step_of_fetch here]
    exact mirrors_perform deeper _ _ _ _ _ _ (roomier.fetched _ _ _ _)

/-- What is settled is mirrored within as many steps, unless a limit stops it. -/
theorem settle_follows {fuel : Nat} {state roomy : State}
    {result : EStateM.Result RunError State Unit} (roomier : Roomier state roomy)
    (settled : settle program settings fuel state = some result)
    (uncut : ∀ cause stopped, result = .error cause stopped → ¬ cause.IsLimit) :
    ∃ roomyResult,
      settle (program.retagged tags) roomySettings fuel roomy = some roomyResult ∧
        Follows result roomyResult := by
  induction fuel generalizing state roomy with
  | zero =>
    simp only [settle, roomier.calls_eq] at settled ⊢
    split at settled
    · next idle =>
      cases settled
      exact ⟨_, if_pos idle, .ok () roomier⟩
    · cases settled
  | succ fuel inductionHypothesis =>
    simp only [settle, roomier.calls_eq] at settled ⊢
    split at settled
    · next idle =>
      cases settled
      exact ⟨_, if_pos idle, .ok () roomier⟩
    · next busy =>
      rw [if_neg busy]
      have alike : Follows (Action.step program settings state)
          (Action.step (program.retagged tags) roomySettings roomy) :=
        mirrors_step deeper state roomy roomier
      split at settled
      · next next stepped =>
        rw [stepped] at alike
        obtain ⟨roomyNext, roomyStepped, roomierNext⟩ := alike.of_ok
        rw [roomyStepped]
        exact inductionHypothesis roomierNext settled
      · next cause stopped failed =>
        cases settled
        rw [failed] at alike
        obtain ⟨roomyStopped, roomyFailed, roomierStopped⟩ :=
          alike.of_error (uncut cause stopped rfl)
        rw [roomyFailed]
        exact ⟨_, rfl, .error cause roomierStopped⟩

theorem settle_mirrored {fuel : Nat} {state roomy final : State} (roomier : Roomier state roomy)
    (settled : settle program settings fuel state = some (.ok () final)) :
    ∃ roomyFinal,
      settle (program.retagged tags) roomySettings fuel roomy = some (.ok () roomyFinal) ∧
        Roomier final roomyFinal := by
  obtain ⟨_, roomySettled, follows⟩ := settle_follows deeper roomier settled
    fun _ _ impossible => by cases impossible
  obtain ⟨roomyFinal, rfl, roomierFinal⟩ := follows.of_ok
  exact ⟨roomyFinal, roomySettled, roomierFinal⟩

theorem failure_mirrored {fuel : Nat} {state roomy stopped : State} {cause : RunError}
    (roomier : Roomier state roomy)
    (failed : settle program settings fuel state = some (.error cause stopped))
    (uncut : ¬ cause.IsLimit) :
    ∃ roomyStopped,
      settle (program.retagged tags) roomySettings fuel roomy =
          some (.error cause roomyStopped) ∧
        Roomier stopped roomyStopped := by
  obtain ⟨_, roomySettled, follows⟩ := settle_follows deeper roomier failed
    fun _ _ same => by
      cases same
      exact uncut
  obtain ⟨roomyStopped, rfl, roomierStopped⟩ := follows.of_error uncut
  exact ⟨roomyStopped, roomySettled, roomierStopped⟩

end Instructions

namespace Roomier

variable {program : CompiledProgram} {tags : Nat → String} {state roomy : State}

theorem reset (wider : state.stack.limit ≤ roomy.stack.limit) :
    Roomier state.reset roomy.reset :=
  ⟨rfl, rfl, rfl, rfl, wider⟩

theorem start (roomier : Roomier state roomy) (main : FunctionEntry) :
    Roomier (start program main state) (start (program.retagged tags) main roomy) := by
  refine { roomier with pc_eq := rfl, calls_eq := ?_ }
  show Frame.mk _ _ (program.retagged tags).code.size :: roomy.calls = _
  rw [CompiledProgram.size_retagged, roomier.calls_eq]
  rfl

/-- Both machines judge the stack alike when their start function has returned. -/
theorem finish (roomier : Roomier state roomy) :
    (finish roomy).outcome = (finish state).outcome ∧
      Roomier (finish state).state (finish roomy).state := by
  unfold Machine.finish
  rw [roomier.values_eq]
  split
  · exact ⟨rfl, roomier.report _ _⟩
  · exact ⟨rfl, { roomier with values_eq := rfl }⟩
  · exact ⟨rfl, roomier⟩

end Roomier

variable {program : CompiledProgram} {settings roomySettings : Settings} {prior roomyPrior : State}
  {fuel : Nat} {ending : Ending}

/-- A run that no limit has cut short is the same on every machine whose limits are no lower,
whatever has been reported before, whether instructions are reported, and whatever their tags are:
it has the same outcome and leaves the same values on the stack, the same active calls and the same
tables. -/
theorem limits_only_cut_runs_short (tags : Nat → String)
    (deeper : settings.maxCallDepth ≤ roomySettings.maxCallDepth)
    (wider : settings.maxStackSize ≤ roomySettings.maxStackSize)
    (rested : Rested program settings prior)
    (roomyRested : Rested (program.retagged tags) roomySettings roomyPrior)
    (ended : execute program settings fuel prior = some ending)
    (uncut : ∀ cause, ending.outcome = .error cause → ¬ cause.IsLimit) :
    ∃ roomyEnding,
      execute (program.retagged tags) roomySettings fuel roomyPrior = some roomyEnding ∧
        roomyEnding.outcome = ending.outcome ∧ Roomier ending.state roomyEnding.state := by
  have ready : Roomier prior.reset roomyPrior.reset := by
    apply Roomier.reset
    rw [rested.limit_eq, roomyRested.limit_eq]
    exact wider
  cases found : program.functions.find? entryPoint with
  | none =>
    have ends : ending = ⟨.error .mainNotFound, prior.reset⟩ := by
      simp only [execute, found] at ended
      exact (Option.some.inj ended).symm
    subst ends
    have roomyFound : (program.retagged tags).functions.find? entryPoint = none := found
    refine ⟨⟨.error .mainNotFound, roomyPrior.reset⟩, ?_, rfl, ready⟩
    simp only [execute, roomyFound]
  | some main =>
    have roomyFound : (program.retagged tags).functions.find? entryPoint = some main := found
    have started : Roomier (start program main prior.reset)
        (start (program.retagged tags) main roomyPrior.reset) := ready.start main
    have calling : ∀ {state roomy : State}, Roomier state roomy →
        Follows (Action.call settings main program.code.size state)
          (Action.call roomySettings main (program.retagged tags).code.size roomy) := by
      intro state roomy roomier
      rw [CompiledProgram.size_retagged]
      exact mirrors_call deeper main _ state roomy roomier
    rw [execute_eq_some_iff found] at ended
    simp only [execute_eq_some_iff roomyFound]
    cases ended with
    | initialising failed =>
      obtain ⟨_, roomyFailed, stopped⟩ := failure_mirrored deeper started failed (uncut _ rfl)
      exact ⟨_, .initialising roomyFailed, rfl, stopped.report _ _⟩
    | entering settled refused =>
      obtain ⟨_, roomySettled, initialised⟩ := settle_mirrored deeper started settled
      obtain ⟨_, roomyRefused, stopped⟩ := (refused ▸ calling initialised).of_error (uncut _ rfl)
      exact ⟨_, .entering roomySettled roomyRefused, rfl, stopped.report _ _⟩
    | running settled called failed =>
      obtain ⟨_, roomySettled, initialised⟩ := settle_mirrored deeper started settled
      obtain ⟨_, roomyCalled, entered⟩ := (called ▸ calling initialised).of_ok
      obtain ⟨_, roomyFailed, stopped⟩ := failure_mirrored deeper entered failed (uncut _ rfl)
      exact ⟨_, .running roomySettled roomyCalled roomyFailed, rfl, stopped.report _ _⟩
    | returning settled called finished =>
      obtain ⟨_, roomySettled, initialised⟩ := settle_mirrored deeper started settled
      obtain ⟨_, roomyCalled, entered⟩ := (called ▸ calling initialised).of_ok
      obtain ⟨_, roomyFinished, final⟩ := settle_mirrored deeper entered finished
      exact ⟨_, .returning roomySettled roomyCalled roomyFinished, final.finish⟩

/-- Code that comes from no program: the global statements define a variable, the start function
leaves a value on the stack and calls a function, and that one reads a variable there is not. -/
def astray : CompiledProgram where
  code := #[
    ⟨.loadConst, .int 7, ""⟩, .named .defineVar "seen" "", .bare .returnVoid "",
    ⟨.loadConst, .int 1, ""⟩, .named .callFunc "inner" "", .bare .returnVoid "",
    .named .loadVar "missing" ""]
  functions := .ofList [
    ("inner", ⟨⟨"inner", "void", [], []⟩, 6⟩),
    ("main", ⟨⟨"main", "void", [], []⟩, 3⟩)]
  initAddress := 0

/-- Settings with limits that `astray` just keeps. -/
def tight : Settings where
  maxCallDepth := 2
  maxStackSize := 1

/-- Settings with more room, and with a report of every instruction. -/
def spacious : Settings where
  maxCallDepth := 5
  maxStackSize := 9
  traceInstructions := true

/-- The run of `astray` fails within the tight limits, and with more room and other tags it fails in
the same way. -/
theorem astray_is_not_cut_short :
    ∃ ending roomyEnding, execute astray tight 7 (.initial tight) = some ending ∧
      ending.outcome = .error (.undefinedVariable "missing") ∧
      ending.state.calls.backtrace = ["main", "inner"] ∧
      execute (astray.retagged toString) spacious 7 (.initial spacious) = some roomyEnding ∧
      roomyEnding.outcome = .error (.undefinedVariable "missing") ∧
      Roomier ending.state roomyEnding.state := by
  have runs : ((execute astray tight 7 (.initial tight)).any fun ending =>
      (ending.outcome matches .error (.undefinedVariable "missing")) &&
        ending.state.calls.backtrace = ["main", "inner"]) = true := by
    decide +kernel
  obtain ⟨ending, ended, ends⟩ := (Option.any_eq_true _ _).mp runs
  rw [Bool.and_eq_true, decide_eq_true_eq] at ends
  obtain ⟨failed, active⟩ := ends
  replace failed : ending.outcome = .error (.undefinedVariable "missing") := by
    split at failed
    · assumption
    · cases failed
  have uncut : ∀ cause, ending.outcome = .error cause → ¬ cause.IsLimit := by
    intro cause stopped limit
    rw [failed] at stopped
    cases stopped
    exact limit
  obtain ⟨roomyEnding, roomyEnded, same, roomier⟩ :=
    limits_only_cut_runs_short toString (by decide : tight.maxCallDepth ≤ spacious.maxCallDepth)
      (by decide : tight.maxStackSize ≤ spacious.maxStackSize) .fresh .fresh ended uncut
  exact ⟨ending, roomyEnding, ended, failed, active, roomyEnded, same.trans failed, roomier⟩

end Machine

end StackLang
