import StackLang.Proofs.FrameTables

/-!
# What the events tell about the calls

A run reports every function that it enters and every call that it ends. The global statements are
not reported when they begin, so their frame is there from the start: `activeAfter` replays events
on top of it. `Recounted` says that the events of a run so far tell of its calls, and that each of
them was right when it was reported. Every step preserves it, whatever the code is and whether or
not the step fails, so it holds all along a run and in the state that the run leaves.
-/

namespace StackLang

namespace Event

/-- The names of the active calls after an event, the innermost first: a call is added and a return
takes one away. -/
def replay (active : List String) : Event → List String
  | .called function _ => function :: active
  | .returned _ => active.tail
  | _ => active

/-- The names of the active calls after some events of a run, which begins with the frame of the
global statements. -/
def activeAfter (events : List Event) : List String :=
  events.foldl replay [globalOwner]

/-- An event is right about the calls that are active before it: a call reports how many there are
with it, and a return is that of the innermost one. -/
def Describes (active : List String) : Event → Prop
  | .called _ depth => depth = active.length + 1
  | .returned function => active.head? = some function
  | _ => True

/-- Every event is right about the calls that the events before it tell of. -/
def Consistent (events : List Event) : Prop :=
  ∀ front event back, events = front ++ event :: back → event.Describes (activeAfter front)

/-- The calls among some events that no return ends, the outermost first, and the number of returns
that end calls from before. Seen from the last event backwards, a call is ended by the nearest
return behind it that does not end a later call. -/
def unmatched : List Event → List String × Nat
  | [] => ([], 0)
  | .called function _ :: later =>
    match unmatched later with
    | (names, 0) => (function :: names, 0)
    | (names, returns + 1) => (names, returns)
  | .returned _ :: later => ((unmatched later).1, (unmatched later).2 + 1)
  | _ :: later => unmatched later

/-- The calls of a run that have not returned, the outermost first. The global statements count as
the first of them. -/
def unreturned (events : List Event) : List String :=
  (unmatched (.called globalOwner 1 :: events)).1

variable {events : List Event} {event : Event}

@[simp] theorem activeAfter_nil : activeAfter [] = [globalOwner] := rfl

@[simp] theorem activeAfter_concat (events : List Event) (event : Event) :
    activeAfter (events ++ [event]) = event.replay (activeAfter events) := by
  simp [activeAfter]

theorem Consistent.nil : Consistent [] := by
  intro front event back parts
  cases front <;> cases parts

/-- An event that is right about the calls can be added. -/
theorem Consistent.concat (consistent : Consistent events)
    (describes : event.Describes (activeAfter events)) : Consistent (events ++ [event]) := by
  intro front other back parts
  rcases List.eq_nil_or_concat back with rfl | ⟨inner, last, rfl⟩
  · obtain ⟨rfl, same⟩ := List.append_inj' parts rfl
    cases same
    exact describes
  · rw [List.concat_eq_append, ← List.cons_append, ← List.append_assoc] at parts
    obtain ⟨rfl, -⟩ := List.append_inj' parts rfl
    exact consistent front other inner rfl

/-- What a replay leaves on a stack of names: the calls that no return ends, above the names that
the other returns have not taken. -/
theorem foldl_replay (events : List Event) (active : List String) :
    events.foldl replay active =
      (unmatched events).1.reverse ++ active.drop (unmatched events).2 := by
  induction events generalizing active with
  | nil => rfl
  | cons event later inductionHypothesis =>
    rw [List.foldl_cons, inductionHypothesis]
    cases event with
    | called function depth =>
      rw [unmatched, replay]
      cases unmatched later with
      | mk names returns => cases returns <;> simp
    | returned function =>
      rw [unmatched, replay]
      cases active <;> simp
    | _ => rfl

/-- The replay of a run ends with the calls that have not returned. -/
theorem activeAfter_eq_unreturned (events : List Event) :
    activeAfter events = (unreturned events).reverse := by
  have whole := foldl_replay (.called globalOwner 1 :: events) []
  rwa [List.drop_nil, List.append_nil] at whole

end Event

namespace Machine

open Event

variable {program : CompiledProgram} {settings : Settings} {prior state next : State}
  {events : List Event}

/-- The given events have been reported since a run began after the state `prior`. Each was right
about the calls when it was reported, and together they tell of the calls that are active. -/
structure Recounted (prior state : State) (events : List Event) : Prop where
  reported : state.events.toList = prior.events.toList ++ events
  consistent : Consistent events
  active : activeAfter events = state.calls.map Frame.function

/-- More events have been reported since, and they tell of the calls as well. -/
def RecountedBeyond (prior : State) (events : List Event) (state : State) : Prop :=
  ∃ later, events <+: later ∧ Recounted prior state later

theorem Recounted.beyond (recounted : Recounted prior state events) :
    RecountedBeyond prior events state :=
  ⟨events, List.prefix_rfl, recounted⟩

/-- Recounting can go on from a state that has been recounted. -/
theorem RecountedBeyond.andThen (beyond : RecountedBeyond prior events state)
    (onward : ∀ later, Recounted prior state later → RecountedBeyond prior later next) :
    RecountedBeyond prior events next := by
  obtain ⟨later, longer, recounted⟩ := beyond
  obtain ⟨last, further, recountedNext⟩ := onward later recounted
  exact ⟨last, longer.trans further, recountedNext⟩

namespace Recounted

/-- The events are determined by the states. -/
theorem unique {others : List Event} (recounted : Recounted prior state events)
    (again : Recounted prior state others) : events = others :=
  List.append_cancel_left (recounted.reported.symm.trans again.reported)

/-- One event is reported that is right about the calls, and they change as it says. -/
theorem report {event : Event} (recounted : Recounted prior state events)
    (events_eq : next.events = state.events.push event)
    (describes : event.Describes (state.calls.map Frame.function))
    (calls_eq : event.replay (state.calls.map Frame.function) = next.calls.map Frame.function) :
    RecountedBeyond prior events next := by
  rw [← recounted.active] at describes calls_eq
  refine ⟨events ++ [event], List.prefix_append _ _, ?_, recounted.consistent.concat describes, ?_⟩
  · rw [events_eq, Array.toList_push, recounted.reported, List.append_assoc]
  · rw [activeAfter_concat, calls_eq]

/-- Nothing is reported and no call begins or ends. -/
theorem unchanged (recounted : Recounted prior state events)
    (events_eq : next.events = state.events) (calls_eq : next.calls = state.calls) :
    Recounted prior next events where
  reported := by rw [events_eq, recounted.reported]
  consistent := recounted.consistent
  active := by rw [calls_eq, recounted.active]

theorem fetched (recounted : Recounted prior state events) (settings : Settings)
    (instruction : Instruction) :
    RecountedBeyond prior events (Action.fetched settings instruction state) := by
  unfold Action.fetched
  split
  · exact recounted.report rfl trivial rfl
  · have moved : Recounted prior { state with pc := state.pc + 1 } events :=
      recounted.unchanged rfl rfl
    exact moved.beyond

theorem entered {entry : FunctionEntry} {returnAddress : Nat}
    (recounted : Recounted prior state events)
    (entered : Entered settings entry returnAddress state next) :
    RecountedBeyond prior events next := by
  apply recounted.report entered.events_eq
  · exact congrArg (· + 1) (List.length_map _).symm
  · rw [entered.calls_eq]
    rfl

theorem left (recounted : Recounted prior state events) :
    RecountedBeyond prior events state.leave := by
  cases calls : state.calls with
  | nil =>
    have idle : state.leave = state := by
      unfold State.leave
      rw [calls]
    rw [idle]
    exact recounted.beyond
  | cons frame callers =>
    rw [State.leave_eq calls]
    apply recounted.report rfl
    · rw [calls]
      rfl
    · rw [calls]
      rfl

/-- A step reports what it does to the calls. -/
theorem step (recounted : Recounted prior state events)
    (stepped : Action.step program settings state = .ok () next) :
    RecountedBeyond prior events next := by
  obtain ⟨instruction, _, performed⟩ := Action.step_cases stepped
  refine (recounted.fetched settings instruction).andThen fun later recountedFetched => ?_
  cases performed with
  | onward steady _ =>
    exact (recountedFetched.unchanged steady.events_eq steady.calls_eq).beyond
  | jumped steady _ _ _ =>
    have kept := recountedFetched.unchanged steady.events_eq steady.calls_eq
    exact ⟨later, List.prefix_rfl, { kept with }⟩
  | called _ _ _ entered => exact recountedFetched.entered entered
  | left _ => exact recountedFetched.left

/-- A step that fails has reported nothing of the calls and leaves them as they were. -/
theorem stopped {cause : RunError} (recounted : Recounted prior state events)
    (failed : Action.step program settings state = .error cause next) :
    RecountedBeyond prior events next := by
  cases found : program.code[state.pc]? with
  | none =>
    simp only [Action.step, Action.bind_get, found] at failed
    cases failed
    exact recounted.beyond
  | some instruction =>
    refine (recounted.fetched settings instruction).andThen fun later recountedFetched => ?_
    have outcome := Action.perform_outcome program settings instruction
      (Action.fetched settings instruction state)
    rw [← Action.step_of_fetch found, failed] at outcome
    exact (recountedFetched.unchanged outcome.events_eq outcome.calls_eq).beyond

/-- Steps report what they do to the calls. -/
theorem advance {count : Nat} {after : State} (recounted : Recounted prior state events)
    (advanced : advance program settings count state = some after) :
    RecountedBeyond prior events after := by
  induction count generalizing state events with
  | zero =>
    cases advanced
    exact recounted.beyond
  | succ count inductionHypothesis =>
    obtain ⟨next, _, stepped, later⟩ := exists_step_of_advance advanced
    exact (recounted.step stepped).andThen fun _ recountedNext =>
      inductionHypothesis recountedNext later

/-- However a phase of a run is settled, it has reported what it has done to the calls. -/
theorem settle {fuel : Nat} {result : EStateM.Result RunError State Unit}
    (recounted : Recounted prior state events)
    (settled : settle program settings fuel state = some result) :
    RecountedBeyond prior events (Action.final result) := by
  obtain ⟨count, last, advanced, ⟨_, rfl⟩ | ⟨cause, final, _, failed, rfl⟩⟩ :=
    advance_of_settle settled
  · exact recounted.advance advanced
  · exact (recounted.advance advanced).andThen fun _ recountedLast => recountedLast.stopped failed

/-- Calling a function reports it, and a call that is refused reports nothing. -/
theorem call {entry : FunctionEntry} {returnAddress : Nat}
    (recounted : Recounted prior state events) :
    RecountedBeyond prior events
      (Action.final (Action.call settings entry returnAddress state)) := by
  cases called : Action.call settings entry returnAddress state with
  | ok _ next => exact recounted.entered (Action.entered_of_call called)
  | error cause next =>
    have steady := Action.steady_of_call called
    exact (recounted.unchanged steady.events_eq steady.calls_eq).beyond

theorem fail (recounted : Recounted prior state events) (cause : RunError) :
    RecountedBeyond prior events (fail cause state).state :=
  recounted.report rfl trivial rfl

theorem finish (recounted : Recounted prior state events) :
    RecountedBeyond prior events (finish state).state := by
  unfold Machine.finish
  split
  · exact recounted.report rfl trivial rfl
  · exact recounted.report rfl trivial rfl
  · exact recounted.beyond

end Recounted

/-- A run begins with the frame of the global statements. -/
theorem recounted_start (program : CompiledProgram) (main : FunctionEntry) (prior : State) :
    RecountedBeyond prior [] (start program main prior.reset) := by
  refine ⟨[.executionStarted program.code.size main.address program.initAddress],
    List.nil_prefix, ?_, ?_, rfl⟩
  · exact Array.toList_push
  · exact @Consistent.concat [] (.executionStarted _ _ _) .nil trivial

/-- In every state that a run comes through, its events have told of the calls. -/
theorem recounted_of_passes {outer : CallStack}
    (passes : Passes program settings prior outer state) : RecountedBeyond prior [] state := by
  cases passes with
  | @initialiser main _ _ _ advanced =>
    exact (recounted_start program main prior).andThen fun _ started => started.advance advanced
  | @main main _ _ _ _ _ _ settled called advanced =>
    refine (recounted_start program main prior).andThen fun _ started => ?_
    refine (started.settle settled).andThen fun _ initialised => ?_
    exact (initialised.entered (Action.entered_of_call called)).andThen fun _ entered =>
      entered.advance advanced

section ToTheEnd

variable {fuel : Nat} {main : FunctionEntry} {ending : Ending}
  (ends : Ends program settings fuel prior main ending)

include ends

/-- When the global statements have been settled, a run goes on to recount its calls. -/
theorem Recounted.afterInitialiser {result : EStateM.Result RunError State Unit}
    (recounted : Recounted prior (Action.final result) events)
    (settled : Machine.settle program settings fuel (start program main prior.reset) =
      some result) :
    RecountedBeyond prior events ending.state := by
  cases ends with
  | initialising failed =>
    cases settled.symm.trans failed
    exact recounted.fail _
  | entering settledHere refused =>
    cases settled.symm.trans settledHere
    have steady := Action.steady_of_call refused
    exact (recounted.unchanged steady.events_eq steady.calls_eq).fail _
  | running settledHere called failed =>
    cases settled.symm.trans settledHere
    refine (recounted.entered (Action.entered_of_call called)).andThen fun _ entered => ?_
    exact (entered.settle failed).andThen fun _ stopped => stopped.fail _
  | returning settledHere called finished =>
    cases settled.symm.trans settledHere
    refine (recounted.entered (Action.entered_of_call called)).andThen fun _ entered => ?_
    exact (entered.settle finished).andThen fun _ final => final.finish

/-- So does it from a state of the start function. -/
theorem Recounted.afterMain {count more : Nat} {initialised entered : State}
    (recounted : Recounted prior state events)
    (settled : Machine.settle program settings more (start program main prior.reset) =
      some (.ok () initialised))
    (called : Action.call settings main program.code.size initialised = .ok () entered)
    (advanced : Machine.advance program settings count entered = some state) :
    RecountedBeyond prior events ending.state := by
  cases ends with
  | initialising failed => cases settle_unique settled failed
  | entering settledHere refused =>
    cases settle_unique settled settledHere
    cases called.symm.trans refused
  | running settledHere calledHere failed =>
    cases settle_unique settled settledHere
    cases called.symm.trans calledHere
    obtain ⟨less, _, failedHere⟩ := settle_of_advance advanced failed
    exact (recounted.settle failedHere).andThen fun _ stopped => stopped.fail _
  | returning settledHere calledHere finished =>
    cases settle_unique settled settledHere
    cases called.symm.trans calledHere
    obtain ⟨less, _, finishedHere⟩ := settle_of_advance advanced finished
    exact (recounted.settle finishedHere).andThen fun _ final => final.finish

/-- From every state that it comes through, a run goes on to recount its calls to its end. -/
theorem Recounted.toEnd {outer : CallStack} (recounted : Recounted prior state events)
    (found : program.functions.find? entryPoint = some main)
    (passes : Passes program settings prior outer state) :
    RecountedBeyond prior events ending.state := by
  cases passes with
  | initialiser foundHere advanced =>
    cases found.symm.trans foundHere
    obtain ⟨result, settled⟩ : ∃ result,
        Machine.settle program settings fuel (start program main prior.reset) = some result := by
      cases ends with
      | initialising settled => exact ⟨_, settled⟩
      | entering settled _ => exact ⟨_, settled⟩
      | running settled _ _ => exact ⟨_, settled⟩
      | returning settled _ _ => exact ⟨_, settled⟩
    obtain ⟨less, _, settledHere⟩ := settle_of_advance advanced settled
    exact (recounted.settle settledHere).andThen fun _ later =>
      later.afterInitialiser ends settled
  | main foundHere settled called advanced =>
    cases found.symm.trans foundHere
    exact recounted.afterMain ends settled called advanced

end ToTheEnd

/-- No call is active when a run has succeeded. -/
theorem idle_of_success {fuel : Nat} {ending : Ending} {value : Option Value}
    (ended : execute program settings fuel prior = some ending)
    (succeeded : ending.outcome = .ok value) : ending.state.calls = [] := by
  obtain ⟨main, _, _, _, found, _⟩ := phases_of_execute ended succeeded
  cases (execute_eq_some_iff found).mp ended with
  | initialising => cases succeeded
  | entering => cases succeeded
  | running => cases succeeded
  | @returning _ _ final _ _ finished =>
    have idle : final.calls = [] := by
      obtain ⟨_, _, _, ⟨idle, same⟩ | ⟨_, _, _, _, impossible⟩⟩ := advance_of_settle finished
      · cases same
        exact idle
      · cases impossible
    unfold finish
    split <;> exact idle

/-- The events of a run tell of its calls all along. Each event is right about the calls that are
active when it is reported, in every state that the run comes through the events until then tell of
the active calls, and when it has ended they tell of those that have not returned: none after a
success. -/
theorem events_recount_calls {main : FunctionEntry} {fuel : Nat} {ending : Ending}
    (found : program.functions.find? entryPoint = some main)
    (ended : execute program settings fuel prior = some ending) :
    ∃ events, Recounted prior ending.state events ∧
      (∀ outer state, Passes program settings prior outer state →
        ∃ earlier, earlier <+: events ∧ Recounted prior state earlier) ∧
      ending.state.calls.backtrace = (activeAfter events).reverse ∧
      ending.state.calls.backtrace = unreturned events ∧
      ∀ value, ending.outcome = .ok value → ending.state.calls.backtrace = [] := by
  have ends := (execute_eq_some_iff found).mp ended
  have begun : Passes program settings prior _ (start program main prior.reset) :=
    .initialiser found (rfl : advance program settings 0 _ = _)
  obtain ⟨events, _, recounted⟩ := (recounted_of_passes begun).andThen fun _ started =>
    started.toEnd ends found begun
  have backtrace_eq : ending.state.calls.backtrace = (activeAfter events).reverse := by
    rw [recounted.active]
    rfl
  refine ⟨events, recounted, ?_, backtrace_eq, ?_, ?_⟩
  · intro outer state passes
    obtain ⟨earlier, _, recountedHere⟩ := recounted_of_passes passes
    obtain ⟨later, longer, recountedEnd⟩ := recountedHere.toEnd ends found passes
    rw [recountedEnd.unique recounted] at longer
    exact ⟨earlier, longer, recountedHere⟩
  · rw [backtrace_eq, activeAfter_eq_unreturned, List.reverse_reverse]
  · intro value succeeded
    rw [idle_of_success ended succeeded]
    rfl

/-- Code that comes from no program: the start function calls one function that returns at once, and
then another, which calls a third without the argument that it takes. -/
def interrupted : CompiledProgram where
  code := #[
    .bare .returnVoid "",
    .named .callFunc "helper" "", .named .callFunc "outer" "", .bare .returnVoid "",
    .named .callFunc "needy" ""]
  functions := .ofList [
    ("helper", ⟨⟨"helper", "void", [], []⟩, 0⟩),
    ("main", ⟨⟨"main", "void", [], []⟩, 1⟩),
    ("needy", ⟨⟨"needy", "void", [⟨"Int", "n"⟩], []⟩, 0⟩),
    ("outer", ⟨⟨"outer", "void", [], []⟩, 4⟩)]
  initAddress := 0

/-- The run of `interrupted` fails while two calls are active, and its events tell of them. -/
theorem interrupted_recounts_calls :
    ∃ ending events, execute interrupted {} 4 (.initial {}) = some ending ∧
      ending.outcome = .error .stackUnderflow ∧ ending.state.calls.backtrace = ["main", "outer"] ∧
      Recounted (.initial {}) ending.state events ∧ unreturned events = ["main", "outer"] := by
  have runs : ((execute interrupted {} 4 (.initial {})).any fun ending =>
      (ending.outcome matches .error .stackUnderflow) &&
        ending.state.calls.backtrace = ["main", "outer"]) = true := by
    decide +kernel
  obtain ⟨ending, ended, ends⟩ := (Option.any_eq_true _ _).mp runs
  obtain ⟨failed, active⟩ : ending.outcome = .error .stackUnderflow ∧
      ending.state.calls.backtrace = ["main", "outer"] := by
    rw [Bool.and_eq_true, decide_eq_true_eq] at ends
    refine ⟨?_, ends.2⟩
    have failed := ends.1
    split at failed
    · assumption
    · cases failed
  obtain ⟨events, recounted, _, _, remaining, _⟩ :=
    events_recount_calls (rfl : interrupted.functions.find? entryPoint = some _) ended
  exact ⟨ending, events, ended, failed, active, recounted, remaining.symm.trans active⟩

end Machine

end StackLang
