import StackLang.Code.Listing

/-!
# Events

What compilation and execution report as they go on. An event has a level, a message and named
fields.
-/

namespace StackLang

/-- Something that compilation or execution reports. -/
inductive Event where
  /-- The code of a function was placed. -/
  | functionPlaced (function : String) (address length : Nat)
  /-- All code was placed. -/
  | programCompiled (functions instructions initAddress : Nat)
  /-- A run begins. -/
  | executionStarted (instructions main initAddress : Nat)
  /-- An instruction is about to be carried out. -/
  | executing (address : Nat) (instruction : Instruction) (depth : Nat)
  /-- A function was entered; `depth` counts its frame. -/
  | called (function : String) (depth : Nat)
  /-- A function was left. -/
  | returned (function : String)
  /-- A run was stopped while the named functions were active, the outermost first. -/
  | executionFailed (cause : RunError) (backtrace : List String)
  /-- A run came to its end with a result. -/
  | executionFinished (result : Option Value)

namespace Event

/-- How much detail an event gives. -/
inductive Level where
  | debug
  | trace
deriving DecidableEq, Repr

/-- The name of a level. -/
def Level.name : Level → String
  | .debug => "DEBUG"
  | .trace => "TRACE"

/-- The level of an event: single calls and instructions are finer than whole runs. -/
def level : Event → Level
  | .executing _ _ _ | .called _ _ | .returned _ => .trace
  | _ => .debug

/-- The message of an event. -/
def message : Event → String
  | .functionPlaced _ _ _ => "registered function"
  | .programCompiled _ _ _ => "compiled program"
  | .executionStarted _ _ _ => "execution started"
  | .executing _ _ _ => "execute"
  | .called _ _ => "call"
  | .returned _ => "return"
  | .executionFailed _ _ => "execution failed"
  | .executionFinished _ => "execution finished"

/-- The fields of an event with their texts, but for the result of a run: its text would show how
the fields of a struct happen to be arranged. -/
def fields : Event → List (String × String)
  | .functionPlaced function address length =>
    [("function", function), ("address", toString address), ("len", toString length)]
  | .programCompiled functions instructions initAddress =>
    [("functions", toString functions), ("instructions", toString instructions),
      ("init_address", toString initAddress)]
  | .executionStarted instructions main initAddress =>
    [("instructions", toString instructions), ("main", toString main),
      ("init", toString initAddress)]
  | .executing address instruction depth =>
    [("pc", toString address), ("opcode", instruction.opcode.name),
      ("operand", instruction.operand.text), ("tag", instruction.tag), ("depth", toString depth)]
  | .called function depth => [("function", function), ("depth", toString depth)]
  | .returned function => [("function", function)]
  | .executionFailed cause backtrace =>
    [("error", cause.message), ("backtrace", Text.quotedList backtrace)]
  | .executionFinished _ => []

end Event

end StackLang
