import StackLang.Machine.Execution

/-!
# Calls as nested loops

A machine can keep its calls in two ways. The steps of `Action.step` leave them on the call stack
alone: a call or a return changes the top frame, and the next step goes on from there. Here every
call is an invocation of a loop of its own instead, which fetches instructions until one of them
returns. Then the loop ends, and what made the call pops the frame, releases its table and reports
the function by the name it has called it by. `Proofs.NestedCalls` shows that both ways come to the
same.
-/

namespace StackLang.Machine

/-- Take the innermost frame from the call stack: its table is released and control goes back to
where it was called. -/
def State.popFrame (state : State) : State :=
  match state.calls with
  | [] => state
  | frame :: callers =>
    { state with
      calls := callers
      scopes := state.scopes.release frame.scope
      pc := frame.returnAddress }

namespace Nested

/-- What an instruction asks of the loop that has fetched it. -/
inductive Demand where
  /-- Fetch the next instruction. -/
  | onward
  /-- Call a function and then fetch the next instruction. -/
  | call (entry : FunctionEntry)
  /-- End the loop. -/
  | leave

/-- Carry out an instruction up to what the loop has to do for it. -/
def perform (program : CompiledProgram) (settings : Settings) (instruction : Instruction) :
    Action Demand :=
  match instruction.opcode with
  | .callFunc => do
    let name ← Action.lift instruction.operand.asString
    match program.functions.find? name with
    | none => throw (.functionNotFound name)
    | some entry => return .call entry
  | .returnValue => do
    if (← get).stack.isEmpty then throw .stackUnderflow else return .leave
  | .returnVoid => return .leave
  | _ => do
    Action.perform program settings instruction
    return .onward

/-- When the loop of an invoked function has ended, its frame is popped and its return reported.
After an error the frame stays. -/
def completed (function : String) :
    Option (EStateM.Result RunError State Unit) → Option (EStateM.Result RunError State Unit)
  | some (.ok () state) => some (.ok () (state.popFrame.report (.returned function)))
  | stopped => stopped

/-- The loop of the innermost call. There is no answer if it takes more than `fuel` instructions,
those of the calls in it included. -/
def run (program : CompiledProgram) (settings : Settings) :
    Nat → State → Option (EStateM.Result RunError State Unit)
  | 0, _ => none
  | fuel + 1, state =>
    match program.code[state.pc]? with
    | none => some (.error (.programCounterOutOfRange state.pc) state)
    | some instruction =>
      match perform program settings instruction (Action.fetched settings instruction state) with
      | .error cause stopped => some (.error cause stopped)
      | .ok .onward next => run program settings fuel next
      | .ok .leave last => some (.ok () last)
      | .ok (.call entry) caller =>
        match Action.call settings entry caller.pc caller with
        | .error cause stopped => some (.error cause stopped)
        | .ok () entered =>
          match completed entry.declaration.name (run program settings fuel entered) with
          | some (.ok () next) => run program settings fuel next
          | stopped => stopped

/-- Run the function whose frame has just been made active, and pop the frame. -/
def invoke (program : CompiledProgram) (settings : Settings) (fuel : Nat) (function : String)
    (entered : State) : Option (EStateM.Result RunError State Unit) :=
  completed function (run program settings fuel entered)

/-- Run a program by nested loops, from whatever state an earlier run has left. -/
def execute (program : CompiledProgram) (settings : Settings) (fuel : Nat) (prior : State) :
    Option Ending :=
  match program.functions.find? entryPoint with
  | none => some ⟨.error .mainNotFound, prior.reset⟩
  | some main =>
    match invoke program settings fuel globalOwner (start program main prior.reset) with
    | none => none
    | some (.error cause state) => some (fail cause state)
    | some (.ok () initialised) =>
      match Action.call settings main program.code.size initialised with
      | .error cause state => some (fail cause state)
      | .ok () entered =>
        match invoke program settings fuel main.declaration.name entered with
        | none => none
        | some (.error cause state) => some (fail cause state)
        | some (.ok () state) => some (finish state)

end Nested

end StackLang.Machine
