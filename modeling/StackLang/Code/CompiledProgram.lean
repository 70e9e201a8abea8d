import StackLang.Code.Instruction
import StackLang.Tree.Program

/-!
# Compiled programs

Code with a table of the functions in it. A function that is entered again replaces the earlier
entry of its name.
-/

namespace StackLang

/-- A function and the address of its code. -/
structure FunctionEntry where
  declaration : FunctionDecl
  address : Nat

/-- Functions by name. -/
abbrev FunctionTable := Bindings FunctionEntry

/-- Enter a function at the address of its code. -/
def FunctionTable.define (table : FunctionTable) (declaration : FunctionDecl) (address : Nat) :
    FunctionTable :=
  table.insert declaration.name ⟨declaration, address⟩

/-- A program that the machine can run. -/
structure CompiledProgram where
  /-- The code of all functions and of the global statements. -/
  code : Bytecode
  functions : FunctionTable
  /-- The address of the code of the global statements. -/
  initAddress : Nat

end StackLang
