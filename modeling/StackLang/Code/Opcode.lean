import StackLang.Operator

/-!
# Opcodes

What an instruction of the machine does.
-/

namespace StackLang

/-- What an instruction does. -/
inductive Opcode where
  /-- Push the operand. -/
  | loadConst
  /-- Push the operand, a struct in its first state. -/
  | newStruct
  /-- Drop the top of the stack. -/
  | pop
  /-- Replace the two values on top by the result of an operator. -/
  | binary (operator : Operator)
  /-- Push the value of a variable. -/
  | loadVar
  /-- Store the top in the nearest variable of a name. -/
  | storeVar
  /-- Bind the top to a name in the current scope. -/
  | defineVar
  /-- Store the second value in a field of the struct on top. -/
  | storeField
  /-- Replace the struct on top by one of its fields. -/
  | loadField
  /-- Move the program counter. -/
  | jump
  /-- Take a condition and move the program counter if it is false. -/
  | jumpIfFalse
  /-- Call a function. -/
  | callFunc
  /-- Return from a call with the top as its value. -/
  | returnValue
  /-- Return from a call. -/
  | returnVoid
deriving DecidableEq, Repr, Inhabited

namespace Opcode

/-- Every opcode. -/
def all : List Opcode :=
  [.loadConst, .newStruct, .pop] ++ Operator.all.map .binary
    ++ [.loadVar, .storeVar, .defineVar, .storeField, .loadField, .jump, .jumpIfFalse, .callFunc,
      .returnValue, .returnVoid]

/-- The name of an opcode in listings. -/
def name : Opcode → String
  | .loadConst => "LOAD_CONST"
  | .newStruct => "NEW_STRUCT"
  | .pop => "POP"
  | .binary .add => "ADD"
  | .binary .sub => "SUB"
  | .binary .mul => "MUL"
  | .binary .div => "DIV"
  | .binary .mod => "MOD"
  | .binary .eq => "EQ"
  | .binary .ne => "NEQ"
  | .binary .lt => "LT"
  | .binary .le => "LTE"
  | .binary .gt => "GT"
  | .binary .ge => "GTE"
  | .loadVar => "LOAD_VAR"
  | .storeVar => "STORE_VAR"
  | .defineVar => "DEFINE_VAR"
  | .storeField => "STORE_FIELD"
  | .loadField => "LOAD_FIELD"
  | .jump => "JUMP"
  | .jumpIfFalse => "JUMP_IF_FALSE"
  | .callFunc => "CALL_FUNC"
  | .returnValue => "RETURN_VALUE"
  | .returnVoid => "RETURN"

/-- The opcode with the given name. -/
def ofName? (text : String) : Option Opcode :=
  all.find? fun opcode => opcode.name == text

/-- The operator an opcode applies. -/
def operator? : Opcode → Option Operator
  | .binary operator => some operator
  | _ => none

/-- Whether an opcode ends a call. -/
def isReturn : Opcode → Bool
  | .returnValue | .returnVoid => true
  | _ => false

theorem mem_all (opcode : Opcode) : opcode ∈ all := by
  cases opcode with
  | binary operator => cases operator <;> decide
  | _ => decide

end Opcode

end StackLang
