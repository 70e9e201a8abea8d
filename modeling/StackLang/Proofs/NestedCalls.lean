import StackLang.Machine.Invocation
import StackLang.Proofs.FrameTables

/-!
# Nested loops and one loop come to the same

A run in which every call has a loop of its own (`Nested.execute`) and a run that takes one step
after the other (`execute`) end in the same way, whatever the code is: with the same outcome and in
the same state, the reported events included (`Nested.execute_iff`). One instruction asks of its
loop what its step does to the calls (`perform_demands`). From there the nested loop is turned into
a walk by induction on its instructions (`run_walks`), and steps are gathered into loops by
induction on their number (`begins_of_settle`); the frame that a loop pops is always the one
that was pushed for it.
-/

namespace StackLang.Machine.Nested

variable {program : CompiledProgram} {settings : Settings} {state : State} {frame : Frame}
  {callers : CallStack} {result : EStateM.Result RunError State Unit}

/-- Ending a call in which a function was active is popping its frame and reporting the function. -/
theorem leave_eq_popFrame (active : state.calls = frame :: callers) :
    state.leave = state.popFrame.report (.returned frame.function) := by
  rw [State.leave_eq active, State.popFrame, active]
  rfl

/-- What a step does in a state in which an instruction asks something of its loop. -/
def Demands (program : CompiledProgram) (settings : Settings) (instruction : Instruction)
    (state : State) : EStateM.Result RunError State Demand → Prop
  | .error cause stopped =>
    Action.perform program settings instruction state = .error cause stopped
  | .ok .onward next =>
    Action.perform program settings instruction state = .ok () next ∧ next.calls = state.calls
  | .ok .leave last =>
    last = state ∧ Action.perform program settings instruction state = .ok () state.leave
  | .ok (.call entry) caller =>
    caller = state ∧ Action.perform program settings instruction state =
      Action.call settings entry state.pc state

section Instructions

variable {instruction : Instruction}

/-- An instruction that neither calls nor returns keeps the active calls. -/
theorem calls_of_perform {next : State}
    (own : instruction.opcode ∉ [.callFunc, .returnValue, .returnVoid])
    (performed : Action.perform program settings instruction state = .ok () next) :
    next.calls = state.calls := by
  have outcome := Action.perform_outcome program settings instruction state
  rw [performed] at outcome
  cases outcome with
  | onward steady _ => exact steady.calls_eq
  | jumped steady _ _ _ => exact steady.calls_eq
  | called calling _ _ _ => simp [calling] at own
  | left returning => rcases returning with returning | returning <;> simp [returning] at own

theorem perform_demands (program : CompiledProgram) (settings : Settings)
    (instruction : Instruction) (state : State) :
    Demands program settings instruction state (perform program settings instruction state) := by
  have plain : instruction.opcode ∉ [.callFunc, .returnValue, .returnVoid] →
      Demands program settings instruction state
        ((do Action.perform program settings instruction; return Demand.onward : Action Demand)
          state) := by
    intro own
    cases performed : Action.perform program settings instruction state with
    | ok _ next =>
      rw [Action.bind_of_ok performed]
      exact ⟨performed, calls_of_perform own performed⟩
    | error cause stopped =>
      rw [Action.bind_of_error performed]
      exact performed
  cases opcode : instruction.opcode with
  | callFunc =>
    simp only [perform, opcode]
    cases named : instruction.operand.asString with
    | error cause =>
      simp only [Demands, Action.perform, opcode, named]
      rfl
    | ok name =>
      rw [Action.lift_ok_bind]
      cases found : program.functions.find? name with
      | none => simp [Demands, Action.perform, opcode, named, found]
      | some entry =>
        simp only [Demands, Action.perform, opcode, named, Action.lift_ok_bind, found,
          Action.bind_get]
        exact ⟨rfl, rfl⟩
  | returnValue =>
    simp only [perform, opcode, Action.bind_get]
    by_cases empty : state.stack.isEmpty = true
    · rw [if_pos empty]
      simp only [Demands, Action.perform, opcode, Action.bind_get, if_pos empty]
      rfl
    · rw [if_neg empty]
      simp only [Demands, Action.perform, opcode, Action.bind_get, if_neg empty]
      exact ⟨rfl, rfl⟩
  | returnVoid =>
    simp only [perform, opcode, Demands, Action.perform]
    exact ⟨rfl, rfl⟩
  | _ =>
    simp only [perform, opcode]
    exact plain (by simp [opcode])

end Instructions

/-- Whatever is done within a bound is done within any greater one. -/
theorem run_mono {fuel more : Nat} (ran : run program settings fuel state = some result)
    (enough : fuel ≤ more) : run program settings more state = some result := by
  induction fuel generalizing more state result with
  | zero => cases ran
  | succ fuel inductionHypothesis =>
    obtain ⟨more, rfl⟩ := Nat.exists_eq_add_of_le' (Nat.lt_of_lt_of_le fuel.succ_pos enough)
    have within : fuel ≤ more := Nat.le_of_succ_le_succ enough
    unfold run at ran ⊢
    split at ran
    · exact ran
    · split at ran
      · exact ran
      · exact inductionHypothesis ran within
      · exact ran
      · next entry caller _ =>
        split at ran
        · exact ran
        · next entered called =>
          cases ranInner : run program settings fuel entered with
          | none =>
            rw [ranInner] at ran
            cases ran
          | some inner =>
            rw [inductionHypothesis ranInner within]
            rw [ranInner] at ran
            split at ran
            · exact inductionHypothesis ran within
            · exact ran

/-- The steps of the machine lead from a state to an outcome. -/
def Steps (program : CompiledProgram) (settings : Settings) (state : State)
    (outcome : EStateM.Result RunError State Unit) : Prop :=
  ∃ count, Walk program settings (fun _ => True) count state outcome

theorem Steps.onward {next : State} {outcome : EStateM.Result RunError State Unit}
    (active : state.calls = frame :: callers)
    (stepped : Action.step program settings state = .ok () next)
    (later : Steps program settings next outcome) : Steps program settings state outcome := by
  obtain ⟨count, walk⟩ := later
  exact ⟨count + 1, .onward trivial (by simp [active]) stepped walk⟩

theorem Steps.stop {cause : RunError} {stopped : State} (active : state.calls = frame :: callers)
    (failed : Action.step program settings state = .error cause stopped) :
    Steps program settings state (.error cause stopped) :=
  ⟨1, .stop trivial (by simp [active]) failed⟩

theorem Steps.trans {middle : State} {outcome : EStateM.Result RunError State Unit}
    (first : Steps program settings state (.ok () middle))
    (later : Steps program settings middle outcome) : Steps program settings state outcome := by
  obtain ⟨count, walk⟩ := first
  obtain ⟨more, walkOn⟩ := later
  exact ⟨count + more, walk.trans walkOn⟩

/-- Steps do what a loop does: they come to its error, or leave the call when it has ended. -/
def Walks (program : CompiledProgram) (settings : Settings) (calls : CallStack) (state : State) :
    EStateM.Result RunError State Unit → Prop
  | .ok () last => last.calls = calls ∧ Steps program settings state (.ok () last.leave)
  | .error cause stopped => Steps program settings state (.error cause stopped)

theorem Walks.onward {next : State} (active : state.calls = frame :: callers)
    (stepped : Action.step program settings state = .ok () next)
    (later : Walks program settings (frame :: callers) next result) :
    Walks program settings (frame :: callers) state result := by
  cases result with
  | ok _ last => exact ⟨later.1, later.2.onward active stepped⟩
  | error cause stopped => exact Steps.onward active stepped later

theorem Walks.after {middle : State} (first : Steps program settings state (.ok () middle))
    (later : Walks program settings (frame :: callers) middle result) :
    Walks program settings (frame :: callers) state result := by
  cases result with
  | ok _ last => exact ⟨later.1, first.trans later.2⟩
  | error cause stopped => exact first.trans later

/-- The loop of a call is walked through step by step. -/
theorem run_walks {fuel : Nat} (active : state.calls = frame :: callers)
    (ran : run program settings fuel state = some result) :
    Walks program settings (frame :: callers) state result := by
  induction fuel generalizing state frame callers result with
  | zero => cases ran
  | succ fuel inductionHypothesis =>
    unfold run at ran
    split at ran
    · next outside =>
      cases ran
      exact Steps.stop active (Action.step_of_outside outside)
    · next instruction found =>
      have stepped := @Action.step_of_fetch state program settings instruction found
      have activeHere :=
        (Action.undisturbed_fetched settings instruction state).calls_eq.trans active
      have demands := perform_demands program settings instruction
        (Action.fetched settings instruction state)
      split at ran
      · next cause stopped asked =>
        cases ran
        rw [asked] at demands
        exact Steps.stop active (stepped.trans demands)
      · next next asked =>
        rw [asked] at demands
        obtain ⟨performed, calls_eq⟩ := demands
        exact .onward active (stepped.trans performed)
          (inductionHypothesis (calls_eq.trans activeHere) ran)
      · next last asked =>
        cases ran
        rw [asked] at demands
        obtain ⟨rfl, performed⟩ := demands
        exact ⟨activeHere, .onward active (stepped.trans performed) ⟨0, .rest _⟩⟩
      · next entry caller asked =>
        rw [asked] at demands
        obtain ⟨rfl, performed⟩ := demands
        rw [performed] at stepped
        split at ran
        · next cause stopped refused =>
          cases ran
          exact Steps.stop active (stepped.trans refused)
        · next entered called =>
          have enteredCalls := (Action.entered_of_call called).calls_eq
          have goesIn := stepped.trans called
          cases ranInner : run program settings fuel entered with
          | none =>
            rw [ranInner] at ran
            cases ran
          | some inner =>
            rw [ranInner] at ran
            have walks := inductionHypothesis enteredCalls ranInner
            cases inner with
            | error cause stopped =>
              cases ran
              exact Steps.onward active goesIn walks
            | ok _ last =>
              obtain ⟨lastCalls, steps⟩ := walks
              have popped := leave_eq_popFrame lastCalls
              rw [popped] at steps
              have resumed : (last.popFrame.report (.returned entry.declaration.name)).calls =
                  frame :: callers := by
                rw [← activeHere]
                have left := congrArg State.calls (State.leave_eq lastCalls)
                exact (congrArg State.calls popped).symm.trans left
              exact .after (steps.onward active goesIn) (inductionHypothesis resumed ran)

/-- A run to an outcome begins with the loop of the innermost call, which stops at an error or ends
with the call still there to be left. -/
inductive Begins (program : CompiledProgram) (settings : Settings) (active : CallStack)
    (fuel : Nat) (state : State) : EStateM.Result RunError State Unit → Prop where
  | stops {cause : RunError} {stopped : State}
      (ran : run program settings fuel state = some (.error cause stopped)) :
      Begins program settings active fuel state (.error cause stopped)
  | leaves {result : EStateM.Result RunError State Unit} {last : State} {less : Nat}
      (ran : run program settings fuel state = some (.ok () last))
      (lastCalls : last.calls = active) (fewer : less < fuel)
      (rest : settle program settings less last.leave = some result) :
      Begins program settings active fuel state result

/-- A loop may begin further back than where it goes on. -/
theorem Begins.before {active : CallStack} {fuel less : Nat} {next : State}
    (goesOn : run program settings (fuel + 1) state = run program settings fuel next)
    (fewer : less ≤ fuel) (begins : Begins program settings active less next result) :
    Begins program settings active (fuel + 1) state result := by
  cases begins with
  | stops ran => exact .stops (goesOn.trans (run_mono ran fewer))
  | leaves ran lastCalls fewest rest =>
    refine .leaves (goesOn.trans (run_mono ran fewer)) lastCalls ?_ rest
    exact Nat.lt_succ_of_lt (Nat.lt_of_lt_of_le fewest fewer)

/-- What settles a state in which a call is active begins with the loop of the call. -/
theorem begins_of_settle {fuel : Nat} (active : state.calls = frame :: callers)
    (settled : settle program settings fuel state = some result) :
    Begins program settings (frame :: callers) fuel state result := by
  induction fuel using Nat.strongRecOn generalizing state frame callers with
  | ind fuel inductionHypothesis =>
    cases fuel with
    | zero => simp [settle, active] at settled
    | succ fuel =>
      simp only [settle, active, List.isEmpty_cons, Bool.false_eq_true, if_false] at settled
      cases found : program.code[state.pc]? with
      | none =>
        rw [Action.step_of_outside found] at settled
        cases settled
        exact .stops (by simp only [run, found])
      | some instruction =>
        rw [Action.step_of_fetch found] at settled
        have activeHere :=
          (Action.undisturbed_fetched settings instruction state).calls_eq.trans active
        have demands := perform_demands program settings instruction
          (Action.fetched settings instruction state)
        cases asked : perform program settings instruction
          (Action.fetched settings instruction state) with
        | error cause stopped =>
          rw [asked] at demands
          rw [show Action.perform _ _ _ _ = _ from demands] at settled
          cases settled
          exact .stops (by simp only [run, found, asked])
        | ok demand next =>
          rw [asked] at demands
          cases demand with
          | onward =>
            obtain ⟨performed, calls_eq⟩ := demands
            rw [performed] at settled
            have goesOn : run program settings (fuel + 1) state =
                run program settings fuel next := by simp only [run, found, asked]
            refine .before goesOn (Nat.le_refl _) ?_
            exact inductionHypothesis fuel (Nat.lt_succ_self _) (calls_eq.trans activeHere) settled
          | leave =>
            obtain ⟨rfl, performed⟩ := demands
            rw [performed] at settled
            exact .leaves (by simp only [run, found, asked]) activeHere (Nat.lt_succ_self _) settled
          | call entry =>
            obtain ⟨rfl, performed⟩ := demands
            rw [performed] at settled
            cases called : Action.call settings entry
              (Action.fetched settings instruction state).pc
              (Action.fetched settings instruction state) with
            | error cause stopped =>
              rw [called] at settled
              cases settled
              exact .stops (by simp only [run, found, asked, called])
            | ok _ entered =>
              rw [called] at settled
              have enteredCalls := (Action.entered_of_call called).calls_eq
              cases inductionHypothesis fuel (Nat.lt_succ_self _) enteredCalls settled with
              | stops ran => exact .stops (by simp only [run, found, asked, called, ran, completed])
              | @leaves _ inner less ran innerCalls fewer rest =>
                -- The called function has returned, so the loop goes on behind the call.
                have resumed : inner.leave.calls = frame :: callers := by
                  rw [State.leave_eq innerCalls]
                  exact activeHere
                have goesOn : run program settings (fuel + 1) state =
                    run program settings fuel inner.leave := by
                  rw [leave_eq_popFrame innerCalls]
                  simp only [run, found, asked, called, ran, completed]
                refine .before goesOn (Nat.le_of_lt fewer) ?_
                exact inductionHypothesis less (Nat.lt_succ_of_lt fewer) resumed rest

/-- A phase of a run, in which one call is active at first, is settled as the invocation of that
call ends. -/
theorem exists_invoke_iff (alone : state.calls = [frame]) :
    (∃ fuel, invoke program settings fuel frame.function state = some result) ↔
      ∃ fuel, settle program settings fuel state = some result := by
  constructor
  · rintro ⟨fuel, invoked⟩
    unfold invoke at invoked
    cases ran : run program settings fuel state with
    | none =>
      rw [ran] at invoked
      cases invoked
    | some ended =>
      rw [ran] at invoked
      have walks := run_walks alone ran
      cases ended with
      | error cause stopped =>
        cases invoked
        obtain ⟨count, walk⟩ := walks
        exact ⟨count, walk.settle_error (Nat.le_refl _)⟩
      | ok _ last =>
        obtain ⟨lastCalls, count, walk⟩ := walks
        rw [completed, ← leave_eq_popFrame lastCalls] at invoked
        cases invoked
        refine ⟨count, walk.settle_ok ?_ (Nat.le_refl _)⟩
        rw [State.leave_eq lastCalls]
  · rintro ⟨fuel, settled⟩
    refine ⟨fuel, ?_⟩
    unfold invoke
    cases begins_of_settle alone settled with
    | stops ran =>
      rw [ran]
      rfl
    | @leaves _ last less ran lastCalls _ rest =>
      have idle : last.leave.calls = [] := by rw [State.leave_eq lastCalls]
      rw [ran, completed, ← leave_eq_popFrame lastCalls, ← rest]
      cases less <;> simp [settle, idle]

theorem invoke_mono {function : String} {fuel more : Nat}
    (invoked : invoke program settings fuel function state = some result) (enough : fuel ≤ more) :
    invoke program settings more function state = some result := by
  unfold invoke at invoked ⊢
  cases ran : run program settings fuel state with
  | none =>
    rw [ran] at invoked
    cases invoked
  | some ended =>
    rw [run_mono ran enough]
    rwa [ran] at invoked

/-- The start function is called when no call is active, so its frame is the only one. -/
theorem alone_of_call {main : FunctionEntry} {fuel : Nat} {initialised entered : State}
    (settled : settle program settings fuel state = some (.ok () initialised))
    (called : Action.call settings main program.code.size initialised = .ok () entered) :
    entered.calls =
      [⟨main.declaration.name, initialised.scopes.nextId, program.code.size⟩] := by
  obtain ⟨_, last, _, ⟨idle, same⟩ | ⟨_, _, _, _, impossible⟩⟩ := advance_of_settle settled
  · cases same
    rw [(Action.entered_of_call called).calls_eq, idle]
  · cases impossible

variable {prior : State} {ending : Ending}

/-- A run by nested loops ends as a run by steps does. -/
theorem exists_execute_of_nested {fuel : Nat}
    (ended : execute program settings fuel prior = some ending) :
    ∃ count, Machine.execute program settings count prior = some ending := by
  unfold execute at ended
  split at ended
  · next missing => exact ⟨0, by simpa only [Machine.execute, missing] using ended⟩
  · next main found =>
    have settles : ∀ result, invoke program settings fuel globalOwner
        (start program main prior.reset) = some result →
        ∃ count, settle program settings count (start program main prior.reset) = some result :=
      fun _ invoked => (@exists_invoke_iff _ _ _ (initialFrame program) _ rfl).mp ⟨fuel, invoked⟩
    split at ended
    · cases ended
    · next cause stopped invoked =>
      cases ended
      obtain ⟨count, failed⟩ := settles _ invoked
      exact ⟨count, (execute_eq_some_iff found).mpr (.initialising failed)⟩
    · next initialised invoked =>
      obtain ⟨count, settled⟩ := settles _ invoked
      split at ended
      · next cause stopped refused =>
        cases ended
        exact ⟨count, (execute_eq_some_iff found).mpr (.entering settled refused)⟩
      · next entered called =>
        have alone := alone_of_call settled called
        split at ended
        · cases ended
        · next cause stopped invokedMain =>
          cases ended
          obtain ⟨more, failed⟩ := (exists_invoke_iff alone).mp ⟨fuel, invokedMain⟩
          refine ⟨max count more, (execute_eq_some_iff found).mpr (.running ?_ called ?_)⟩
          · exact settle_mono settled (Nat.le_max_left _ _)
          · exact settle_mono failed (Nat.le_max_right _ _)
        · next final invokedMain =>
          cases ended
          obtain ⟨more, finished⟩ := (exists_invoke_iff alone).mp ⟨fuel, invokedMain⟩
          refine ⟨max count more, (execute_eq_some_iff found).mpr (.returning ?_ called ?_)⟩
          · exact settle_mono settled (Nat.le_max_left _ _)
          · exact settle_mono finished (Nat.le_max_right _ _)

/-- A run by steps ends as a run by nested loops does. -/
theorem exists_nested_of_execute {fuel : Nat}
    (ended : Machine.execute program settings fuel prior = some ending) :
    ∃ count, execute program settings count prior = some ending := by
  cases found : program.functions.find? entryPoint with
  | none => exact ⟨0, by simpa only [execute, Machine.execute, found] using ended⟩
  | some main =>
    have invokes : ∀ {result}, settle program settings fuel (start program main prior.reset) =
        some result → ∃ count, invoke program settings count globalOwner
          (start program main prior.reset) = some result :=
      fun settled => (@exists_invoke_iff _ _ _ (initialFrame program) _ rfl).mpr ⟨fuel, settled⟩
    cases (execute_eq_some_iff found).mp ended with
    | initialising failed =>
      obtain ⟨count, invoked⟩ := invokes failed
      exact ⟨count, by simp only [execute, found, invoked]⟩
    | entering settled refused =>
      obtain ⟨count, invoked⟩ := invokes settled
      exact ⟨count, by simp only [execute, found, invoked, refused]⟩
    | running settled called failed =>
      obtain ⟨count, invoked⟩ := invokes settled
      obtain ⟨more, invokedMain⟩ :=
        (exists_invoke_iff (alone_of_call settled called)).mpr ⟨fuel, failed⟩
      have first := invoke_mono invoked (Nat.le_max_left count more)
      have second := invoke_mono invokedMain (Nat.le_max_right count more)
      exact ⟨max count more, by simp only [execute, found, first, called, second]⟩
    | returning settled called finished =>
      obtain ⟨count, invoked⟩ := invokes settled
      obtain ⟨more, invokedMain⟩ :=
        (exists_invoke_iff (alone_of_call settled called)).mpr ⟨fuel, finished⟩
      have first := invoke_mono invoked (Nat.le_max_left count more)
      have second := invoke_mono invokedMain (Nat.le_max_right count more)
      exact ⟨max count more, by simp only [execute, found, first, called, second]⟩

/-- Runs by nested loops end as runs by steps do. -/
theorem execute_iff : (∃ fuel, execute program settings fuel prior = some ending) ↔
    ∃ fuel, Machine.execute program settings fuel prior = some ending :=
  ⟨fun ⟨_, ended⟩ => exists_execute_of_nested ended,
    fun ⟨_, ended⟩ => exists_nested_of_execute ended⟩

end StackLang.Machine.Nested
