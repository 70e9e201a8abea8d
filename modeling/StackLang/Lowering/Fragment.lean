import StackLang.Lowering.BodyContext

/-!
# Code composed from parts

The code of a tree said without an emitter: the code of a construct is put together from the code of
its parts, and a jump is as long as the part it passes over. It is defined for every tree and is of
interest for those that are not refused.
-/

namespace StackLang

namespace Instruction

/-- An instruction whose operand is a name. -/
def named (opcode : Opcode) (name tag : String) : Instruction :=
  ⟨opcode, .string name, tag⟩

/-- An instruction without an operand. -/
def bare (opcode : Opcode) (tag : String) : Instruction :=
  ⟨opcode, .none, tag⟩

/-- A jump over a number of instructions. -/
def jumpOver (opcode : Opcode) (count : Nat) (tag : String) : Instruction :=
  ⟨opcode, .int (Int64.ofNat count), tag⟩

/-- The instructions that load a variable and one member after the other. -/
def loadPath (root : String) (members : List String) (tag : String) : List Instruction :=
  named .loadVar root tag :: members.map fun name => named .loadField name tag

/-- The instructions that store the top of the stack at the end of a path, whose members are given
from the innermost outwards. -/
def storePath (root : String) (tag : String) : List String → List Instruction
  | [] => [named .storeVar root tag]
  | name :: outer =>
    loadPath root outer.reverse tag ++ named .storeField name tag :: storePath root tag outer

end Instruction

namespace Expr

mutual

/-- The code of an expression. -/
def code (tag : String) : Expr → List Instruction
  | .literal value => [⟨.loadConst, value.toValue, tag⟩]
  | .identifier name => [.named .loadVar name tag]
  | .binary (.evaluated operator) left right =>
    code tag left ++ code tag right ++ [.bare (.binary operator) tag]
  | .binary _ left right => code tag left ++ code tag right
  | .call callee arguments => codeAll tag arguments ++ [.named .callFunc callee tag]
  | .member object name => code tag object ++ [.named .loadField name tag]

/-- The code of expressions, one after the other. -/
def codeAll (tag : String) : List Expr → List Instruction
  | [] => []
  | expr :: rest => code tag expr ++ codeAll tag rest

end

/-- Whether the code of an expression leaves a value. -/
def hasValue (context : BodyContext) : Expr → Bool
  | .call callee _ => context.callHasValue callee
  | _ => true

end Expr

namespace Stmt

/-- The code that loads the first value of a variable. -/
def initialCode (context : BodyContext) (type : String) (tag : String) :
    Option Expr → List Instruction
  | some expr => expr.code tag
  | none =>
    match context.types.defaultValue type with
    | .error _ => []
    | .ok value => [⟨if value.isKind .struct then .newStruct else .loadConst, value, tag⟩]

/-- The code that stores the top of the stack in a target. -/
def storeCode (target : Expr) (tag : String) : List Instruction :=
  match target.path with
  | .ok (root, members) => Instruction.storePath root tag members.reverse
  | .error _ => []

mutual

/-- The code of a statement. -/
def code (context : BodyContext) : Stmt → List Instruction
  | .expression expr =>
    let tag := context.tag "expr"
    expr.code tag ++ if expr.hasValue context then [.bare .pop tag] else []
  | .declaration type name initial =>
    let tag := context.tag "decl"
    initialCode context type tag initial ++ [.named .defineVar name tag]
  | .assignment target value =>
    let tag := context.tag "assign"
    value.code tag ++ storeCode target tag
  | .returning none => [.bare .returnVoid (context.tag "return")]
  | .returning (some expr) =>
    let tag := context.tag "return"
    expr.code tag ++ [.bare .returnValue tag]
  | .block body => codeAll context body
  | .conditional condition thenBranch none =>
    let tag := context.tag "if"
    let thenCode := code context thenBranch
    condition.code tag ++ .jumpOver .jumpIfFalse thenCode.length tag :: thenCode
  | .conditional condition thenBranch (some elseBranch) =>
    let tag := context.tag "if"
    let thenCode := code context thenBranch
    let elseCode := code context elseBranch
    condition.code tag ++ .jumpOver .jumpIfFalse (thenCode.length + 1) tag :: thenCode
      ++ .jumpOver .jump elseCode.length tag :: elseCode

/-- The code of statements, one after the other. -/
def codeAll (context : BodyContext) : List Stmt → List Instruction
  | [] => []
  | statement :: rest => code context statement ++ codeAll context rest

end

end Stmt

/-- The code of a body: its statements and a return. -/
def BodyContext.bodyCode (context : BodyContext) (body : List Stmt) : List Instruction :=
  Stmt.codeAll context body ++ [.bare .returnVoid (context.tag "end")]

end StackLang
