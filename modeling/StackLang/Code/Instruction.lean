import StackLang.Code.Opcode
import StackLang.Value.Basic

/-!
# Instructions and code

An instruction is an opcode with an operand: a constant, a name as a text, a jump distance as an
integer, or nothing. Its tag says which statement it comes from and has no effect. Jumps are
relative, so code keeps its meaning wherever it is placed.
-/

namespace StackLang

/-- One instruction. -/
structure Instruction where
  opcode : Opcode
  operand : Value := .none
  tag : String := ""

/-- Whether two instructions have the same opcode and tag and equal operands. -/
def Instruction.equal (left right : Instruction) : Bool :=
  left.opcode == right.opcode && left.operand == right.operand && left.tag == right.tag

/-- Instructions at consecutive addresses from zero. -/
abbrev Bytecode := Array Instruction

namespace Bytecode

/-- The opcodes in order of address. -/
def opcodes (code : Bytecode) : List Opcode :=
  code.toList.map Instruction.opcode

/-- Whether two pieces of code have equal instructions at the same addresses. -/
def equal (left right : Bytecode) : Bool :=
  left.size == right.size && (left.zip right).all fun (leftOne, rightOne) => leftOne.equal rightOne

end Bytecode

end StackLang
