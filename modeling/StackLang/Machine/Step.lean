import StackLang.Code.CompiledProgram
import StackLang.Machine.State
import StackLang.Value.Arithmetic

/-!
# Steps of the machine

One step fetches the instruction at the program counter, moves the counter behind it and carries the
instruction out. A call makes a frame active and a return ends the innermost one.
-/

namespace StackLang.Machine

/-- Bring an integer into the range of 64-bit integers. -/
def saturate (number : Int) : Int :=
  (Int64.ofIntClamp number).toInt

/-- Bind parameters to arguments in a table, the last parameter first, so that of several parameters
with one name the first keeps it. -/
def bindParameters (scope : ScopeId) (parameters : List TypedName) (arguments : List Value)
    (scopes : Scopes) : Scopes :=
  (parameters.reverse.zip arguments).foldl
    (fun scopes (parameter, argument) => scopes.define scope parameter.name argument) scopes

/-- What a search for a name has come to. The tables of a machine form a tree, in which every search
ends; one that does not would find nothing. -/
def searched {α : Type} (name : String) (answer : Option (Except RunError α)) :
    Except RunError α :=
  answer.getD (.error (.undefinedVariable name))

namespace Action

/-- Move the program counter by the distance in an operand. -/
def jump (program : CompiledProgram) (operand : Value) : Action Unit := do
  let distance ← lift operand.asInt
  let state ← get
  let target := saturate (state.pc + distance.toInt)
  if target < 0 ∨ program.code.size ≤ target then throw (.invalidJumpTarget target)
  else set { state with pc := target.toNat }

/-- Call a function with the arguments on top of the stack, the last one topmost. Its table is a
child of the global one, so it does not see the variables of its caller. -/
def call (settings : Settings) (entry : FunctionEntry) (returnAddress : Nat) : Action Unit := do
  let depth := (← get).calls.depth
  if settings.maxCallDepth ≤ depth then throw (.recursionTooDeep settings.maxCallDepth)
  else
    let function := entry.declaration
    let arguments ← popMany function.arity
    modify fun state =>
      let scope := state.scopes.nextId
      let bound := { state with
        scopes := bindParameters scope function.parameters arguments
          (state.scopes.createChild .global) }
      let reported := bound.report (.called function.name (depth + 1))
      reported.enter ⟨function.name, scope, returnAddress⟩ entry.address

/-- Carry out an instruction that has been fetched. -/
def perform (program : CompiledProgram) (settings : Settings) (instruction : Instruction) :
    Action Unit :=
  let operand := instruction.operand
  match instruction.opcode with
  | .loadConst | .newStruct => push operand
  | .pop => do
    let _ ← pop
  | .binary operator => do
    let right ← pop
    let left ← pop
    push (← lift (operator.apply left right))
  | .loadVar => do
    let name ← lift operand.asString
    let state ← get
    push (← lift (searched name (state.scopes.resolve state.currentScope name)))
  | .storeVar => do
    let value ← pop
    let name ← lift operand.asString
    let state ← get
    let scopes ← lift (searched name (state.scopes.assign state.currentScope name value))
    set { state with scopes }
  | .defineVar => do
    let value ← pop
    let name ← lift operand.asString
    modify fun state =>
      { state with scopes := state.scopes.define state.currentScope name value }
  | .storeField => do
    let record ← lift (← pop).asStruct
    let value ← pop
    let name ← lift operand.asString
    push (.struct (record.insert name value))
  | .loadField => do
    let record ← lift (← pop).asStruct
    let name ← lift operand.asString
    push (← lift (Record.field record name))
  | .jump => jump program operand
  | .jumpIfFalse => do
    let condition ← lift (← pop).asCondition
    if condition then pure () else jump program operand
  | .callFunc => do
    let name ← lift operand.asString
    match program.functions.find? name with
    | none => throw (.functionNotFound name)
    | some entry => call settings entry (← get).pc
  | .returnValue => do
    let state ← get
    if state.stack.isEmpty then throw .stackUnderflow else set state.leave
  | .returnVoid => modify State.leave

/-- The state in which an instruction that has been fetched is carried out. -/
def fetched (settings : Settings) (instruction : Instruction) (state : State) : State :=
  { (if settings.traceInstructions then
      state.report (.executing state.pc instruction state.calls.depth) else state) with
    pc := state.pc + 1 }

/-- Fetch the next instruction and carry it out. -/
def step (program : CompiledProgram) (settings : Settings) : Action Unit := do
  let state ← get
  match program.code[state.pc]? with
  | none => throw (.programCounterOutOfRange state.pc)
  | some instruction =>
    set (fetched settings instruction state)
    perform program settings instruction

end Action

end StackLang.Machine
