import StackLang.Event
import StackLang.Machine.CallStack
import StackLang.Machine.OperandStack
import StackLang.Machine.Settings

/-!
# States of the machine

All that a run changes. An action either goes on in a new state or stops with an error in the state
it has reached, which can be looked at afterwards.
-/

namespace StackLang.Machine

/-- The state of the machine. -/
structure State where
  /-- The address of the next instruction. -/
  pc : Nat := 0
  stack : OperandStack
  calls : CallStack := []
  scopes : Scopes := {}
  /-- All events reported so far, the earliest first. -/
  events : Array Event := #[]

/-- A change of state that may stop with an error. -/
abbrev Action := EStateM RunError State

namespace State

/-- The state of a machine that has not run. -/
def initial (settings : Settings) : State where
  stack := .empty settings.maxStackSize

/-- The state a run starts in, whatever the last one left behind; the events are kept. -/
def reset (state : State) : State where
  stack := state.stack.clear
  events := state.events

/-- The table that names are looked up from. -/
def currentScope (state : State) : ScopeId :=
  state.calls.current?.elim .global Frame.scope

/-- Report an event. -/
def report (state : State) (event : Event) : State :=
  { state with events := state.events.push event }

/-- Make a call active and go to its code. -/
def enter (state : State) (frame : Frame) (address : Nat) : State :=
  { state with calls := frame :: state.calls, pc := address }

/-- End the innermost call: its table is released and the caller goes on. -/
def leave (state : State) : State :=
  match state.calls with
  | [] => state
  | frame :: callers =>
    { state with
      calls := callers
      scopes := state.scopes.release frame.scope
      pc := frame.returnAddress
      events := state.events.push (.returned frame.function) }

/-- The value of a global variable. -/
def global? (state : State) (name : String) : Option Value :=
  state.scopes.local? .global name

end State

namespace Action

variable {α : Type}

/-- Stop with the error of a computation, or go on with its value. -/
def lift : Except RunError α → Action α
  | .ok value => pure value
  | .error cause => throw cause

/-- Put a value on the operand stack. -/
def push (value : Value) : Action Unit := fun state =>
  match state.stack.push value with
  | .ok stack => .ok () { state with stack }
  | .error cause => .error cause state

/-- Take the top value of the operand stack. -/
def pop : Action Value := fun state =>
  match state.stack.pop with
  | .ok (value, stack) => .ok value { state with stack }
  | .error cause => .error cause state

/-- Take a number of values from the operand stack, the top first. -/
def popMany : Nat → Action (List Value)
  | 0 => pure []
  | count + 1 => do
    let value ← pop
    let others ← popMany count
    return value :: others

end Action

end StackLang.Machine
