import StackLang.Code.Instruction
import StackLang.Value.Text

/-!
# Listings

Code shown one instruction to a line: the address, the opcode, the operand if there is one, and the
tag if it is not empty.
-/

namespace StackLang

/-- Fill a text with a character on the left up to a width. -/
def Text.padLeft (width : Nat) (filler : Char) (text : String) : String :=
  String.ofList (List.replicate (width - text.length) filler) ++ text

/-- Fill a text with a character on the right up to a width. -/
def Text.padRight (width : Nat) (filler : Char) (text : String) : String :=
  text ++ String.ofList (List.replicate (width - text.length) filler)

/-- The width of the opcode column, which the longest name fills. -/
def Instruction.opcodeWidth : Nat := 13

/-- The text of an instruction. -/
def Instruction.text (instruction : Instruction) : String :=
  Text.padRight Instruction.opcodeWidth ' ' instruction.opcode.name
    ++ (if instruction.operand.isKind .none then "" else " " ++ instruction.operand.text)
    ++ (if instruction.tag.isEmpty then "" else " ; " ++ instruction.tag)

namespace Bytecode

/-- The lines of a listing. -/
def lines (code : Bytecode) : List String :=
  code.toList.mapIdx fun address instruction =>
    Text.padLeft 4 '0' (toString address) ++ " " ++ instruction.text

/-- The listing of code, each line with its line end. -/
def listing (code : Bytecode) : String :=
  String.join (code.lines.map (· ++ "\n"))

end Bytecode

end StackLang
