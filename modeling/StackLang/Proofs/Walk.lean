import StackLang.Machine.Execution

/-!
# Walks of the machine

A walk is a number of steps from a state, up to a state or to the error that stopped the last of
them. It remembers something of every state in which a step was taken: `Seen` holds there. Since a
step has one outcome, a walk is the only way the machine can go on, and a walk to the end says how a
run is settled. `Visited` are the states that a run comes through, and a walk from the beginning of
a phase comes through the same ones (`Walk.seen_of_advance`).
-/

namespace StackLang.Machine

theorem searched_eq_ok_iff {α : Type} {name : String} {answer : Option (Except RunError α)}
    {value : α} : searched name answer = .ok value ↔ answer = some (.ok value) := by
  cases answer <;> simp [searched]

namespace Action

variable {α β : Type} {action : Action α} {next : α → Action β} {state after : State}

theorem bind_of_ok {value : α} (succeeds : action state = .ok value after) :
    (action >>= next) state = next value after := by
  simp [Bind.bind, EStateM.bind, succeeds]

theorem bind_of_error {cause : RunError} (fails : action state = .error cause after) :
    (action >>= next) state = .error cause after := by
  simp [Bind.bind, EStateM.bind, fails]

@[simp] theorem bind_get (next : State → Action β) (state : State) :
    (get >>= next) state = next state state := rfl

@[simp] theorem set_apply (state after : State) :
    (set after : Action PUnit) state = .ok ⟨⟩ after := rfl

@[simp] theorem throw_apply (cause : RunError) (state : State) :
    (throw cause : Action α) state = .error cause state := rfl

@[simp] theorem pure_apply (value : α) (state : State) :
    (pure value : Action α) state = .ok value state := rfl

@[simp] theorem lift_ok_bind (value : α) (next : α → Action β) (state : State) :
    (lift (.ok value) >>= next) state = next value state := rfl

theorem pop_of_nil (values_eq : state.stack.values = []) :
    pop state = .error .stackUnderflow state := by
  have empty : state.stack = .empty state.stack.limit := OperandStack.ext rfl values_eq
  rw [pop, empty]
  rfl

theorem pop_of_cons {value : Value} {rest : List Value}
    (values_eq : state.stack.values = value :: rest) :
    pop state = .ok value { state with
      stack := ⟨state.stack.limit, rest, rest.length, rfl⟩ } := by
  have popped : state.stack.pop = .ok (value, ⟨state.stack.limit, rest, rest.length, rfl⟩) := by
    rw [OperandStack.pop_eq_ok_iff]
    exact OperandStack.ext rfl values_eq
  simp only [pop, popped]

theorem step_of_fetch {program : CompiledProgram} {settings : Settings}
    {instruction : Instruction} (found : program.code[state.pc]? = some instruction) :
    step program settings state =
      perform program settings instruction (fetched settings instruction state) := by
  simp only [step, bind_get, found]
  rfl

theorem step_of_outside {program : CompiledProgram} {settings : Settings}
    (outside : program.code[state.pc]? = none) :
    step program settings state = .error (.programCounterOutOfRange state.pc) state := by
  simp only [step, bind_get, outside, throw_apply]

end Action

/-- However many steps are allowed, a state is settled in one way. -/
theorem settle_unique {program : CompiledProgram} {settings : Settings} {one two : Nat}
    {state : State} {first second : EStateM.Result RunError State Unit}
    (settledFirst : settle program settings one state = some first)
    (settledSecond : settle program settings two state = some second) : first = second := by
  have firstMore := settle_mono settledFirst (Nat.le_max_left one two)
  have secondMore := settle_mono settledSecond (Nat.le_max_right one two)
  rw [firstMore] at secondMore
  exact Option.some.inj secondMore

/-- The state after a number of steps, if that many are taken. -/
def advance (program : CompiledProgram) (settings : Settings) : Nat → State → Option State
  | 0, state => some state
  | count + 1, state =>
    if state.calls.isEmpty then none
    else
      match Action.step program settings state with
      | .ok () next => advance program settings count next
      | .error _ _ => none

/-- The states in which the phases of a run begin. -/
inductive Begins (program : CompiledProgram) (settings : Settings) (prior : State) : State → Prop
    where
  | initialiser {main : FunctionEntry} (found : program.functions.find? entryPoint = some main) :
      Begins program settings prior (start program main prior.reset)
  | main {main : FunctionEntry} {fuel : Nat} {initialised state : State}
      (found : program.functions.find? entryPoint = some main)
      (settled : settle program settings fuel (start program main prior.reset) =
        some (.ok () initialised))
      (called : Action.call settings main program.code.size initialised = .ok () state) :
      Begins program settings prior state

/-- The states that a run comes through. -/
def Visited (program : CompiledProgram) (settings : Settings) (prior state : State) : Prop :=
  ∃ begun count, Begins program settings prior begun ∧
    advance program settings count begun = some state

section Advance

variable {program : CompiledProgram} {settings : Settings} {prior state after : State}

theorem advance_of_step {count : Nat} {next : State} (busy : state.calls ≠ [])
    (stepped : Action.step program settings state = .ok () next) :
    advance program settings (count + 1) state = advance program settings count next := by
  simp only [advance, List.isEmpty_iff, busy, if_false, stepped]

/-- Advancing is advancing step by step. -/
theorem exists_step_of_advance {count : Nat}
    (advanced : advance program settings (count + 1) state = some after) :
    ∃ next, state.calls ≠ [] ∧ Action.step program settings state = .ok () next ∧
      advance program settings count next = some after := by
  simp only [advance, List.isEmpty_iff] at advanced
  split at advanced
  · cases advanced
  · next busy =>
    split at advanced
    · next next stepped => exact ⟨next, busy, stepped, advanced⟩
    · cases advanced

/-- A state on the way is settled as the first one is. -/
theorem settle_of_advance {count fuel : Nat} {result : EStateM.Result RunError State Unit}
    (advanced : advance program settings count state = some after)
    (settled : settle program settings fuel state = some result) :
    ∃ less, count + less = fuel ∧ settle program settings less after = some result := by
  induction count generalizing state fuel with
  | zero =>
    cases advanced
    exact ⟨fuel, Nat.zero_add fuel, settled⟩
  | succ count inductionHypothesis =>
    obtain ⟨next, busy, stepped, advanced⟩ := exists_step_of_advance advanced
    cases fuel with
    | zero => simp [settle, busy] at settled
    | succ fuel =>
      simp only [settle, List.isEmpty_iff, busy, if_false, stepped] at settled
      obtain ⟨less, total, settledAfter⟩ := inductionHypothesis advanced settled
      exact ⟨less, by omega, settledAfter⟩

/-- What is settled has been advanced to its end: to a state without active calls, or to a step that
fails. -/
theorem advance_of_settle {fuel : Nat} {result : EStateM.Result RunError State Unit}
    (settled : settle program settings fuel state = some result) :
    ∃ count last, advance program settings count state = some last ∧
      ((last.calls = [] ∧ result = .ok () last) ∨
        ∃ cause final, last.calls ≠ [] ∧ Action.step program settings last = .error cause final ∧
          result = .error cause final) := by
  induction fuel generalizing state with
  | zero =>
    simp only [settle, List.isEmpty_iff] at settled
    split at settled
    · next idle =>
      cases settled
      exact ⟨0, state, rfl, .inl ⟨idle, rfl⟩⟩
    · cases settled
  | succ fuel inductionHypothesis =>
    simp only [settle, List.isEmpty_iff] at settled
    split at settled
    · next idle =>
      cases settled
      exact ⟨0, state, rfl, .inl ⟨idle, rfl⟩⟩
    · next busy =>
      split at settled
      · next next stepped =>
        obtain ⟨count, last, advanced, ended⟩ := inductionHypothesis settled
        refine ⟨count + 1, last, ?_, ended⟩
        rw [advance_of_step busy stepped]
        exact advanced
      · next cause final failed =>
        cases settled
        exact ⟨0, state, rfl, .inr ⟨cause, final, busy, failed, rfl⟩⟩

/-- A run that succeeds goes through both phases. -/
theorem phases_of_execute {fuel : Nat} {ending : Ending} {value : Option Value}
    (ended : execute program settings fuel prior = some ending)
    (succeeded : ending.outcome = .ok value) :
    ∃ main initialised entered final, program.functions.find? entryPoint = some main ∧
      settle program settings fuel (start program main prior.reset) =
        some (.ok () initialised) ∧
      Action.call settings main program.code.size initialised = .ok () entered ∧
      settle program settings fuel entered = some (.ok () final) := by
  unfold execute at ended
  split at ended
  · cases ended
    cases succeeded
  · next main found =>
    split at ended
    · cases ended
    · cases ended
      cases succeeded
    · next initialised settled =>
      split at ended
      · cases ended
        cases succeeded
      · next entered called =>
        split at ended
        · cases ended
        · cases ended
          cases succeeded
        · next final finished =>
          exact ⟨main, initialised, entered, final, found, settled, called, finished⟩

/-- The ways in which a run can end that has a function to start in: an error stops the global
statements, the start function is refused, an error stops it, or it returns. -/
inductive Ends (program : CompiledProgram) (settings : Settings) (fuel : Nat) (prior : State)
    (main : FunctionEntry) : Ending → Prop where
  | initialising {cause : RunError} {stopped : State}
      (failed : settle program settings fuel (start program main prior.reset) =
        some (.error cause stopped)) :
      Ends program settings fuel prior main (fail cause stopped)
  | entering {initialised stopped : State} {cause : RunError}
      (settled : settle program settings fuel (start program main prior.reset) =
        some (.ok () initialised))
      (refused : Action.call settings main program.code.size initialised = .error cause stopped) :
      Ends program settings fuel prior main (fail cause stopped)
  | running {initialised entered stopped : State} {cause : RunError}
      (settled : settle program settings fuel (start program main prior.reset) =
        some (.ok () initialised))
      (called : Action.call settings main program.code.size initialised = .ok () entered)
      (failed : settle program settings fuel entered = some (.error cause stopped)) :
      Ends program settings fuel prior main (fail cause stopped)
  | returning {initialised entered final : State}
      (settled : settle program settings fuel (start program main prior.reset) =
        some (.ok () initialised))
      (called : Action.call settings main program.code.size initialised = .ok () entered)
      (finished : settle program settings fuel entered = some (.ok () final)) :
      Ends program settings fuel prior main (finish final)

theorem execute_eq_some_iff {fuel : Nat} {ending : Ending} {main : FunctionEntry}
    (found : program.functions.find? entryPoint = some main) :
    execute program settings fuel prior = some ending ↔
      Ends program settings fuel prior main ending := by
  constructor
  · intro ended
    simp only [execute, found] at ended
    split at ended
    · cases ended
    · next failed =>
      cases ended
      exact .initialising failed
    · next settled =>
      split at ended
      · next refused =>
        cases ended
        exact .entering settled refused
      · next called =>
        split at ended
        · cases ended
        · next failed =>
          cases ended
          exact .running settled called failed
        · next finished =>
          cases ended
          exact .returning settled called finished
  · intro ends
    cases ends with
    | initialising failed => simp only [execute, found, failed]
    | entering settled refused => simp only [execute, found, settled, refused]
    | running settled called failed => simp only [execute, found, settled, called, failed]
    | returning settled called finished => simp only [execute, found, settled, called, finished]

/-- When a run has succeeded, each of its phases has. -/
theorem settle_of_begins {fuel : Nat} {ending : Ending} {value : Option Value}
    (ended : execute program settings fuel prior = some ending)
    (succeeded : ending.outcome = .ok value) (begins : Begins program settings prior state) :
    ∃ final, settle program settings fuel state = some (.ok () final) := by
  obtain ⟨main, initialised, entered, final, found, settled, called, finished⟩ :=
    phases_of_execute ended succeeded
  cases begins with
  | initialiser foundHere =>
    rw [found] at foundHere
    cases foundHere
    exact ⟨initialised, settled⟩
  | main foundHere settledHere calledHere =>
    rw [found] at foundHere
    cases foundHere
    cases settle_unique settled settledHere
    rw [called] at calledHere
    cases calledHere
    exact ⟨final, finished⟩

end Advance

/-- Steps from a state, each taken in a state of which `Seen` holds while some call is active. -/
inductive Walk (program : CompiledProgram) (settings : Settings) (Seen : State → Prop) :
    Nat → State → EStateM.Result RunError State Unit → Prop where
  | rest (state : State) : Walk program settings Seen 0 state (.ok () state)
  | stop {state after : State} {cause : RunError} (seen : Seen state) (busy : state.calls ≠ [])
      (failed : Action.step program settings state = .error cause after) :
      Walk program settings Seen 1 state (.error cause after)
  | onward {state next : State} {count : Nat} {result : EStateM.Result RunError State Unit}
      (seen : Seen state) (busy : state.calls ≠ [])
      (stepped : Action.step program settings state = .ok () next)
      (later : Walk program settings Seen count next result) :
      Walk program settings Seen (count + 1) state result

namespace Walk

variable {program : CompiledProgram} {settings : Settings} {Seen : State → Prop}

/-- Walk on from where a walk has come to. -/
theorem trans {first second : Nat} {state middle : State}
    {result : EStateM.Result RunError State Unit}
    (walk : Walk program settings Seen first state (.ok () middle))
    (later : Walk program settings Seen second middle result) :
    Walk program settings Seen (first + second) state result := by
  generalize reached : EStateM.Result.ok () middle = arrival at walk
  induction walk with
  | rest state =>
    cases reached
    rwa [Nat.zero_add]
  | stop _ _ _ => cases reached
  | onward seen busy stepped _ inductionHypothesis =>
    rw [Nat.add_right_comm]
    exact .onward seen busy stepped (inductionHypothesis reached)

/-- Remember less of the states on the way. -/
theorem mono {Weaker : State → Prop} {count : Nat} {state : State}
    {result : EStateM.Result RunError State Unit} (weaker : ∀ state, Seen state → Weaker state)
    (walk : Walk program settings Seen count state result) :
    Walk program settings Weaker count state result := by
  induction walk with
  | rest state => exact .rest state
  | stop seen busy failed => exact .stop (weaker _ seen) busy failed
  | onward seen busy stepped _ inductionHypothesis =>
    exact .onward (weaker _ seen) busy stepped inductionHypothesis

/-- A walk to an error settles a run with that error. -/
theorem settle_error {count fuel : Nat} {state after : State} {cause : RunError}
    (walk : Walk program settings Seen count state (.error cause after)) (enough : count ≤ fuel) :
    settle program settings fuel state = some (.error cause after) := by
  generalize stopped : EStateM.Result.error cause after = arrival at walk
  induction walk generalizing fuel with
  | rest state => cases stopped
  | stop _ busy failed =>
    cases stopped
    obtain ⟨fuel, rfl⟩ := Nat.exists_eq_add_of_le' enough
    simp [settle, busy, failed]
  | onward _ busy stepped _ inductionHypothesis =>
    obtain ⟨fuel, rfl⟩ := Nat.exists_eq_add_of_le' (Nat.le_of_add_left_le enough)
    simp only [settle, List.isEmpty_iff, busy, if_false, stepped]
    exact inductionHypothesis (by omega) stopped

/-- A walk to a state without active calls settles a run in that state. -/
theorem settle_ok {count fuel : Nat} {state after : State}
    (walk : Walk program settings Seen count state (.ok () after)) (idle : after.calls = [])
    (enough : count ≤ fuel) : settle program settings fuel state = some (.ok () after) := by
  generalize reached : EStateM.Result.ok () after = arrival at walk
  induction walk generalizing fuel with
  | rest state =>
    cases reached
    cases fuel <;> simp [settle, idle]
  | stop _ _ _ => cases reached
  | onward _ busy stepped _ inductionHypothesis =>
    obtain ⟨fuel, rfl⟩ := Nat.exists_eq_add_of_le' (Nat.le_of_add_left_le enough)
    simp only [settle, List.isEmpty_iff, busy, if_false, stepped]
    exact inductionHypothesis (by omega) reached

/-- A walk that ends in a state comes to it. -/
theorem advance_eq {count : Nat} {state after : State}
    (walk : Walk program settings Seen count state (.ok () after)) :
    advance program settings count state = some after := by
  generalize reached : EStateM.Result.ok () after = arrival at walk
  induction walk with
  | rest state =>
    cases reached
    rfl
  | stop _ _ _ => cases reached
  | onward _ busy stepped _ inductionHypothesis =>
    rw [advance_of_step busy stepped]
    exact inductionHypothesis reached

/-- The machine comes through the states of a walk. -/
theorem seen_of_advance {total count : Nat} {state after : State}
    {result : EStateM.Result RunError State Unit}
    (walk : Walk program settings Seen total state result) (before : count < total)
    (advanced : advance program settings count state = some after) : Seen after := by
  induction walk generalizing count with
  | rest state => exact absurd before (Nat.not_lt_zero count)
  | stop seen _ _ =>
    obtain rfl : count = 0 := Nat.lt_one_iff.mp before
    cases advanced
    exact seen
  | onward seen busy stepped _ inductionHypothesis =>
    cases count with
    | zero =>
      cases advanced
      exact seen
    | succ count =>
      rw [advance_of_step busy stepped] at advanced
      exact inductionHypothesis (Nat.lt_of_succ_lt_succ before) advanced

/-- A walk until no call is active is as long as the machine goes on. -/
theorem advance_cases {total count : Nat} {state after : State}
    {result : EStateM.Result RunError State Unit}
    (walk : Walk program settings Seen total state result)
    (idle : ∀ final, result = .ok () final → final.calls = [])
    (advanced : advance program settings count state = some after) :
    count < total ∨ (count = total ∧ result = .ok () after) := by
  induction walk generalizing count with
  | rest state =>
    cases count with
    | zero =>
      cases advanced
      exact .inr ⟨rfl, rfl⟩
    | succ count =>
      obtain ⟨_, busy, _⟩ := exists_step_of_advance advanced
      exact absurd (idle state rfl) busy
  | stop seen busy failed =>
    cases count with
    | zero => exact .inl Nat.zero_lt_one
    | succ count =>
      obtain ⟨_, _, stepped, _⟩ := exists_step_of_advance advanced
      rw [failed] at stepped
      cases stepped
  | onward seen busy stepped _ inductionHypothesis =>
    cases count with
    | zero => exact .inl (Nat.succ_pos _)
    | succ count =>
      rw [advance_of_step busy stepped] at advanced
      rcases inductionHypothesis idle advanced with before | ⟨same, arrived⟩
      · exact .inl (Nat.succ_lt_succ before)
      · exact .inr ⟨congrArg (· + 1) same, arrived⟩

end Walk

end StackLang.Machine
